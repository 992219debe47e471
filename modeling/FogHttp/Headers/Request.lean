import FogHttp.Headers.Body
import FogHttp.Transport.Request

/-!
# Requests that track who owns their headers

A request of a client with auth is built with an `AuthHeaderProvenance`.  It remembers the
headers at the build and those that the request itself was given, and it reads later edits
off the mutation log of `request.headers`.  `rawRequestOptions` asks it which headers belong
to the caller and which ones the caller has removed.

`Headers` objects are named by their place in `objects`, since the provenance compares them
by identity.  The caller may hold any number of them, edit them, attach them to other
requests, and assign them to `request.headers`.

A `set` or `frozenset` of names is a list, of which only membership is read.  The names are
handed over in sorted order, which nobody reads.
-/

namespace FogHttp

open Lib Multipart

/-! ## Provenance -/

structure AuthHeaderProvenance where
  baselineNames : List Text
  requestOwnedNames : List Text
  replacementNames : List Text
  /-- The tracked `Headers` object. -/
  trackedHeaders : Option Nat
  trackedVersion : Nat
deriving DecidableEq, Repr

/-- `_header_names`. -/
def Headers.headerNames (headers : Headers) : List Text :=
  headers.iter.map normalizeHeaderName

namespace AuthHeaderProvenance

/-- The names that have changed since the build, as far as they are tracked. -/
def changed (provenance : AuthHeaderProvenance) (headers : Headers) : List Text :=
  provenance.replacementNames ++ headers.mutationsAfter provenance.trackedVersion

/-- `overrides` of the `Headers` object `object`: the names that the caller owns, and the
names that the caller has removed. -/
def overrides (provenance : AuthHeaderProvenance) (object : Nat) (headers : Headers) :
    List Text × List Text :=
  let currentNames := headers.headerNames
  if some object ≠ provenance.trackedHeaders then
    (currentNames, provenance.baselineNames.filter fun name => !currentNames.contains name)
  else
    let changed := provenance.changed headers
    ((provenance.requestOwnedNames ++ changed).filter fun name => currentNames.contains name,
      changed.filter fun name => !currentNames.contains name)

/-- `track`, with the object after its checkpoint. -/
def track (provenance : AuthHeaderProvenance) (object : Nat) (headers : Headers) :
    AuthHeaderProvenance × Headers :=
  let (version, headers) := headers.mutationCheckpoint
  ({ provenance with trackedHeaders := some object, trackedVersion := version }, headers)

/-- `replace`. -/
def replace (provenance : AuthHeaderProvenance) (object : Nat) (headers : Headers) :
    AuthHeaderProvenance × Headers :=
  if some object = provenance.trackedHeaders then (provenance, headers)
  else
    { provenance with replacementNames :=
        provenance.replacementNames ++ provenance.baselineNames ++ headers.headerNames }.track
      object headers

end AuthHeaderProvenance

/-! ## Requests -/

/-- A `Request`, with the `Headers` objects that the caller holds. -/
structure Request where
  objects : List Headers
  /-- `request.headers`. -/
  headers : Nat
  provenance : Option AuthHeaderProvenance

/-- `RequestMergeContract.headers`: the client defaults that the request does not override,
and then the headers of the request. -/
def mergeHeaders (defaults : HeaderPairs) (requestHeaders : Headers) : Headers :=
  let overrideNames := requestHeaders.multiItems.map fun pair => normalizeHeaderName pair.1
  let kept := (Headers.ofPairs defaults).multiItems.filter fun pair =>
    !overrideNames.contains (normalizeHeaderName pair.1)
  requestHeaders.multiItems.foldl (fun merged pair => merged.add pair.1 pair.2)
    (Headers.ofPairs kept)

/-- The parts of `RequestBuildOptions` that the headers depend on. -/
structure RequestBuildOptions where
  headers : HeaderPairs
  body : BodySource
deriving DecidableEq, Repr

/-- The headers that `build` validates, and that `Request` copies. -/
def RequestBuildOptions.merged (options : RequestBuildOptions) (defaults : HeaderPairs) :
    Headers :=
  mergeHeaders defaults (Headers.ofPairs options.headers)

namespace Request

end Request

/-! ## Edits -/

inductive HeaderChange where
  | set (name value : Text)
  | add (name value : Text)
  | delete (name : Text)
deriving DecidableEq, Repr

/-- The lower-case name of the changed header. -/
def HeaderChange.name : HeaderChange → Text
  | .set name _ | .add name _ | .delete name => normalizeHeaderName name

/-- A change of headers, with `none` for the `KeyError` of a deletion. -/
def Headers.change (headers : Headers) : HeaderChange → Option Headers
  | .set name value => some (headers.set name value)
  | .add name value => some (headers.add name value)
  | .delete name => headers.delete name

/-- What the caller does with a request and with `Headers` objects. -/
inductive Edit where
  /-- A change of an object, which may be `request.headers`. -/
  | change (object : Nat) (change : HeaderChange)
  /-- A new `Headers` object. -/
  | create (pairs : HeaderPairs)
  /-- Another request tracks an object. -/
  | checkpoint (object : Nat)
  /-- `request.headers = object`. -/
  | assign (object : Nat)
deriving DecidableEq, Repr

namespace Request

/-- The setter of `Request.headers`. -/
def setHeaders (request : Request) (object : Nat) (headers : Headers) : Request :=
  match request.provenance with
  | none => { request with headers := object }
  | some provenance =>
      let (provenance, headers) := provenance.replace object headers
      { objects := request.objects.set object headers
        headers := object
        provenance := some provenance }

/-- The request after an edit.  An edit of an object that does not exist, and one that
raises, changes nothing. -/
def edit (request : Request) : Edit → Request
  | .change object change =>
      match request.objects[object]?.bind fun headers => headers.change change with
      | some headers => { request with objects := request.objects.set object headers }
      | none => request
  | .create pairs => { request with objects := request.objects ++ [Headers.ofPairs pairs] }
  | .checkpoint object =>
      match request.objects[object]? with
      | some headers =>
          { request with objects := request.objects.set object headers.mutationCheckpoint.2 }
      | none => request
  | .assign object =>
      match request.objects[object]? with
      | some headers => request.setHeaders object headers
      | none => request

/-- The current `request.headers`. -/
def currentHeaders (request : Request) : Headers :=
  request.objects[request.headers]?.getD .empty

end Request

/-! ## The options of the transport -/

def acceptEncoding : Text := "Accept-Encoding"

def supportedEncodings : Text := "gzip, deflate, br"

/-- The parts of `RawRequestOptions` about headers. -/
structure RawRequestOptions where
  headers : HeaderPairs
  authOverrideHeaders : Option (List Text)
  authRemovedHeaders : List Text
deriving DecidableEq, Repr

/-- `raw_request_options`. -/
def rawRequestOptions (request : Request) (autoAcceptEncoding : Bool) : RawRequestOptions :=
  let headers := request.currentHeaders
  let authHeaders := request.provenance.map fun provenance =>
    provenance.overrides request.headers headers
  let authOverrideHeaders := authHeaders.map Prod.fst
  let authRemovedHeaders := (authHeaders.map Prod.snd).getD []
  if autoAcceptEncoding && (headers.get acceptEncoding).isNone &&
      !authRemovedHeaders.contains (normalizeHeaderName acceptEncoding) then
    { headers := headers.multiItems ++ [(acceptEncoding, supportedEncodings)]
      authOverrideHeaders :=
        some (authOverrideHeaders.getD headers.headerNames)
      authRemovedHeaders }
  else { headers := headers.multiItems, authOverrideHeaders, authRemovedHeaders }

end FogHttp
