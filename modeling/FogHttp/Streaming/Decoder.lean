import FogHttp.Lib.Text

/-!
# The streaming decoder

`StreamingDecoder` undoes the content codings of a response body, one codec call
at a time.  Its layers stand in the order in which they decode: layer 0 reads
the encoded body, and every later layer reads the slot that the layer before it
fills.  A slot holds the output of one codec call, and it is not written while
it is occupied.

`step` picks one layer, from the last to the first, and runs it once.  A failed
step is remembered, and every later step returns the same error.

The codecs are outside the repository.  `CodecLibrary` is `Codec::new` and
`Codec::step` over an opaque codec state, and a codec call returns its output
where the source writes it into the scratch buffer.  Byte counters are 64-bit
and are checked where the source checks them.

Each layer carries two ghost fields, `taken` and `given`: the bytes that its
successful calls have consumed and produced.  No function reads them.
-/

namespace FogHttp.Streaming

open Lib

abbrev Bytes := List UInt8

def inputSize : Nat := 8 * 1024
def outputSize : Nat := 64 * 1024
def maxLayers : Nat := 4

/-- The number of values of a `usize`. -/
def usizeRange : Nat := 2 ^ 64

/-! ## Codings and errors -/

inductive Coding where
  | gzip
  | deflate
  | brotli
deriving DecidableEq, Repr

/-- `Coding::name`. -/
def Coding.name : Coding → Text
  | .gzip => "gzip"
  | .deflate => "deflate"
  | .brotli => "br"

/-- `StreamDecodeError`, with the source error as its text. -/
inductive StreamDecodeError where
  | invalidContentEncoding
  | unsupportedCoding
  | tooManyLayers
  | tooLarge (coding : Text) (layer limit : Nat)
  | counterOverflow
  | decode (coding : Text) (layer : Nat) (source : Text)
deriving DecidableEq, Repr

/-! ## The plan -/

/-- The codings of a response in decoding order. -/
structure StreamingDecodePlan where
  codings : List Coding
  bounded : codings.length ≤ maxLayers
deriving DecidableEq

/-- Codings in the order of the headers, before the plan reverses them. -/
abbrev ListedCodings := { codings : List Coding // codings.length ≤ maxLayers }

/-- The characters of a coding name. -/
def isTokenChar (c : Char) : Bool :=
  isAsciiAlphanumeric c || ("!#$%&'*+-.^_`|~" : Text).contains c

/-- The coding that an item names. -/
def codingOf (item : Text) : Option Coding :=
  if eqIgnoreAsciiCase item "gzip" || eqIgnoreAsciiCase item "x-gzip" then some .gzip
  else if eqIgnoreAsciiCase item "deflate" then some .deflate
  else if eqIgnoreAsciiCase item "br" then some .brotli
  else none

/-- The inner loop body of `StreamingDecodePlan::from_headers`. -/
def pushItem (listed : ListedCodings) (item : Text) : Except StreamDecodeError ListedCodings :=
  let item := trimMatches (fun c => c == ' ' || c == '\t') item
  if item.isEmpty || eqIgnoreAsciiCase item "identity" then .ok listed
  else if !item.all isTokenChar then .error .invalidContentEncoding
  else
    match codingOf item with
    | none => .error .unsupportedCoding
    | some coding =>
        if h : listed.1.length = maxLayers then .error .tooManyLayers
        else .ok ⟨listed.1 ++ [coding], by
          have := listed.2
          rw [List.length_append, List.length_singleton]
          omega⟩

/-- The outer loop body of `StreamingDecodePlan::from_headers`.  `toStr` is
`HeaderValue::to_str` of the `http` crate. -/
def pushValue (toStr : Text → Option Text) (listed : ListedCodings) (value : Text) :
    Except StreamDecodeError ListedCodings :=
  match toStr value with
  | none => .error .invalidContentEncoding
  | some value => (value.splitOn ',').foldlM pushItem listed

/-- `StreamingDecodePlan::from_headers` on the `Content-Encoding` values. -/
def StreamingDecodePlan.fromHeaders (toStr : Text → Option Text) (values : List Text) :
    Except StreamDecodeError StreamingDecodePlan := do
  let listed ← values.foldlM (pushValue toStr) ⟨[], by decide⟩
  .ok ⟨listed.1.reverse, by
    rw [List.length_reverse]
    exact listed.2⟩

/-! ## Codecs -/

inductive CodecStatus where
  | needsInput
  | progress
  | ended
deriving DecidableEq, Repr

/-- `CodecStep` with the produced bytes. -/
structure CodecStep where
  consumed : Nat
  output : Bytes
  status : CodecStatus
deriving DecidableEq, Repr

/-- `Codec::new` and `Codec::step`.  A call gets its input, the end-of-input
flag and the capacity of the output buffer. -/
structure CodecLibrary (σ : Type) where
  new : Coding → σ
  step : σ → Bytes → Bool → Nat → Except Text (σ × CodecStep)

/-! ## The decoder -/

inductive StepStatus where
  | needsInput
  | progress
  | finished
deriving DecidableEq, Repr

structure Step where
  consumed : Nat
  output : Option Bytes
  status : StepStatus
deriving DecidableEq, Repr

inductive LayerState where
  | needsInput
  | ready
  | ended
  | finished
deriving DecidableEq, Repr

structure Layer (σ : Type) where
  coding : Coding
  codec : σ
  /-- The slot in front of the layer.  Layer 0 does not use it. -/
  input : Bytes
  produced : Nat
  state : LayerState
  taken : Bytes
  given : Bytes
deriving DecidableEq, Repr

structure StreamingDecoder (σ : Type) where
  layers : List (Layer σ)
  maxDecodedBytes : Option Nat
  encodedBytes : Nat
  identityBytes : Nat
  finished : Bool
  failure : Option StreamDecodeError
deriving DecidableEq, Repr

/-- `checked_add` on `usize`. -/
def checkedAdd (left right : Nat) : Option Nat :=
  if left + right < usizeRange then some (left + right) else none

/-- `checked_output`. -/
def checkedOutput (current produced : Nat) (limit : Option Nat) (coding : Text) (layer : Nat) :
    Except StreamDecodeError Nat :=
  match checkedAdd current produced with
  | none => .error .counterOverflow
  | some total =>
      match limit with
      | none => .ok total
      | some limit => if total > limit then .error (.tooLarge coding layer limit) else .ok total

/-- The state of a layer after a codec call. -/
def LayerState.ofStatus : CodecStatus → LayerState
  | .needsInput => .needsInput
  | .progress => .ready
  | .ended => .ended

namespace StreamingDecoder

variable {σ : Type}

/-- `StreamingDecoder::new`. -/
def new (library : CodecLibrary σ) (plan : StreamingDecodePlan) (maxDecodedBytes : Option Nat) :
    StreamingDecoder σ where
  layers := plan.codings.map fun coding =>
    ⟨coding, library.new coding, [], 0, .needsInput, [], []⟩
  maxDecodedBytes
  encodedBytes := 0
  identityBytes := 0
  finished := false
  failure := none

/-- The capacity that `run_layer` gives to a codec call. -/
def capacity (decoder : StreamingDecoder σ) (produced : Nat) : Nat :=
  match decoder.maxDecodedBytes with
  | none => outputSize
  | some limit => min (min (limit - produced + 1) (usizeRange - 1)) outputSize

/-- The layers with `output` in the slot of layer `index`. -/
def fillSlot (layers : List (Layer σ)) (index : Nat) (output : Option Bytes) : List (Layer σ) :=
  match output, layers[index]? with
  | some bytes, some layer => layers.set index { layer with input := bytes }
  | _, _ => layers

/-- `StreamingDecoder::run_layer`. -/
def runLayer (library : CodecLibrary σ) (decoder : StreamingDecoder σ) (index : Nat)
    (layer : Layer σ) (input : Bytes) (upstreamEof : Bool) :
    Except StreamDecodeError Step × StreamingDecoder σ :=
  let available := if index = 0 then input else layer.input
  let offered := min available.length inputSize
  let eof := upstreamEof && offered == available.length
  match library.step layer.codec (available.take offered) eof
      (decoder.capacity layer.produced) with
  | .error source => (.error (.decode layer.coding.name index source), decoder)
  | .ok (codec, result) =>
      match checkedOutput layer.produced result.output.length decoder.maxDecodedBytes
          layer.coding.name index with
      | .error error =>
          (.error error, { decoder with layers := decoder.layers.set index { layer with codec } })
      | .ok produced =>
          let consumed := if index = 0 then result.consumed else 0
          let slot := if index = 0 then layer.input else layer.input.drop result.consumed
          match checkedAdd decoder.encodedBytes consumed with
          | none =>
              (.error .counterOverflow, { decoder with
                layers := decoder.layers.set index { layer with codec, produced, input := slot } })
          | some encodedBytes =>
              let layers := decoder.layers.set index
                { layer with
                  codec
                  produced
                  input := slot
                  state := .ofStatus result.status
                  taken := layer.taken ++ available.take result.consumed
                  given := layer.given ++ result.output }
              let output := if result.output.isEmpty then none else some result.output
              if index + 1 < decoder.layers.length then
                (.ok ⟨consumed, none, .progress⟩, { decoder with
                  layers := fillSlot layers (index + 1) output, encodedBytes })
              else (.ok ⟨consumed, output, .progress⟩, { decoder with layers, encodedBytes })

/-- `StreamingDecoder::identity`. -/
def identity (decoder : StreamingDecoder σ) (input : Bytes) (realEof : Bool) :
    Except StreamDecodeError Step × StreamingDecoder σ :=
  let consumed := min input.length inputSize
  match checkedOutput decoder.identityBytes consumed decoder.maxDecodedBytes "identity" 0 with
  | .error error => (.error error, decoder)
  | .ok identityBytes =>
      match checkedAdd decoder.encodedBytes consumed with
      | none => (.error .counterOverflow, { decoder with identityBytes })
      | some encodedBytes =>
          let finished := consumed == 0 && realEof
          let status : StepStatus :=
            if finished then .finished else if consumed = 0 then .needsInput else .progress
          let output := if consumed = 0 then none else some (input.take consumed)
          (.ok ⟨consumed, output, status⟩, { decoder with identityBytes, encodedBytes, finished })

/-- The slot in front of layer `index` is occupied. -/
def occupied (decoder : StreamingDecoder σ) (index : Nat) : Bool :=
  decoder.layers[index]?.any fun layer => !layer.input.isEmpty

/-- The end of input of layer `index`. -/
def upstreamEof (decoder : StreamingDecoder σ) (index : Nat) (realEof : Bool) : Bool :=
  match index with
  | 0 => realEof
  | upstream + 1 => decoder.layers[upstream]?.any fun layer => layer.state == .finished

/-- The loop of `StreamingDecoder::advance` over the layers below `count`, from
the last one down. -/
def drain (library : CodecLibrary σ) (decoder : StreamingDecoder σ) (input : Bytes)
    (realEof : Bool) : Nat → Except StreamDecodeError Step × StreamingDecoder σ
  | 0 =>
      let finished := decoder.layers.all fun layer => layer.state == .finished
      let status : StepStatus :=
        if finished then .finished else if realEof then .progress else .needsInput
      (.ok ⟨0, none, status⟩, { decoder with finished })
  | index + 1 =>
      match decoder.layers[index]? with
      | none => drain library decoder input realEof index
      | some layer =>
          let upstreamEof := decoder.upstreamEof index realEof
          let available := if index = 0 then input else layer.input
          match layer.state with
          | .finished => drain library decoder input realEof index
          | .ended =>
              if !available.isEmpty then
                (.error (.decode layer.coding.name index "trailing data"), decoder)
              else if upstreamEof then
                drain library
                  { decoder with
                    layers := decoder.layers.set index { layer with state := .finished } }
                  input realEof index
              else drain library decoder input realEof index
          | .needsInput =>
              if available.isEmpty && !upstreamEof then
                drain library decoder input realEof index
              else if decoder.occupied (index + 1) then
                drain library decoder input realEof index
              else runLayer library decoder index layer input upstreamEof
          | .ready =>
              if decoder.occupied (index + 1) then drain library decoder input realEof index
              else runLayer library decoder index layer input upstreamEof

/-- `StreamingDecoder::advance`. -/
def advance (library : CodecLibrary σ) (decoder : StreamingDecoder σ) (input : Bytes)
    (realEof : Bool) : Except StreamDecodeError Step × StreamingDecoder σ :=
  if decoder.finished then
    if !input.isEmpty then (.error (.decode "identity" 0 "input after completion"), decoder)
    else (.ok ⟨0, none, .finished⟩, decoder)
  else if decoder.layers.isEmpty then decoder.identity input realEof
  else drain library decoder input realEof decoder.layers.length

/-- `StreamingDecoder::step`. -/
def step (library : CodecLibrary σ) (decoder : StreamingDecoder σ) (input : Bytes)
    (realEof : Bool) : Except StreamDecodeError Step × StreamingDecoder σ :=
  match decoder.failure with
  | some error => (.error error, decoder)
  | none =>
      match decoder.advance library input realEof with
      | (.error error, decoder) => (.error error, { decoder with failure := some error })
      | (.ok step, decoder) => (.ok step, decoder)

end StreamingDecoder

end FogHttp.Streaming
