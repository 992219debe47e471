/-!
# Blocks that raise

A `Block` is a block of statements in a language with exceptions.  It runs on a state, and it
ends with a value or it raises.  What it did to the state before it raised stays.

* `attempt` is `try` with `except` and `else`.  Only what the body raises comes to the
  handler: an exception of the handler or of the `else` branch passes on.
* `ensuring` is `try` with `finally`.  The exception of the last block replaces what the
  body ended with.
* `forEach` is a loop over a list.

`wp` is the weakest precondition of a block for what shall hold after a value and after an
exception.  The rules take a goal about a block apart along its statements, and `wp_mono`
applies what is known of a function that is called.

Nothing here names a function of a particular program.
-/

namespace FogHttp.Lib

/-- A block of statements with a state in `σ` and exceptions in `ε`. -/
def Block (σ ε α : Type) : Type := σ → Except ε α × σ

namespace Block

variable {σ ε α β ι : Type}

instance : Monad (Block σ ε) where
  pure value := fun s => (.ok value, s)
  bind block next := fun s =>
    match block s with
    | (.ok value, s) => next value s
    | (.error error, s) => (.error error, s)

def raise (error : ε) : Block σ ε α := fun s => (.error error, s)

def read : Block σ ε σ := fun s => (.ok s, s)

def update (change : σ → σ) : Block σ ε Unit := fun s => (.ok (), change s)

/-- `try: body`, `except: handler`, `else: orelse`. -/
def attempt (body : Block σ ε α) (handler : ε → Block σ ε β) (orelse : α → Block σ ε β) :
    Block σ ε β := fun s =>
  match body s with
  | (.ok value, s) => orelse value s
  | (.error error, s) => handler error s

/-- `try: body`, `finally: last`. -/
def ensuring (body : Block σ ε α) (last : Block σ ε Unit) : Block σ ε α := fun s =>
  match last (body s).2 with
  | (.ok (), s') => ((body s).1, s')
  | (.error error, s') => (.error error, s')

/-- `for item in items: body`. -/
def forEach (items : List ι) (body : ι → Block σ ε Unit) : Block σ ε Unit :=
  match items with
  | [] => pure ()
  | item :: rest => do
      body item
      forEach rest body

/-! ## Weakest preconditions -/

/-- The block ends with `value` or raises with `exception`. -/
def wp (block : Block σ ε α) (value : α → σ → Prop) (exception : ε → σ → Prop) (s : σ) : Prop :=
  match block s with
  | (.ok result, s') => value result s'
  | (.error error, s') => exception error s'

variable {value value' : α → σ → Prop} {exception exception' : ε → σ → Prop} {s : σ}

/-- What is known of a block holds of its result. -/
theorem wp_iff {block : Block σ ε α} :
    wp block value exception s ↔
      (∀ result s', block s = (.ok result, s') → value result s') ∧
        ∀ error s', block s = (.error error, s') → exception error s' := by
  unfold wp
  cases hrun : block s with
  | mk ended s' =>
      cases ended with
      | ok result =>
          refine ⟨fun h => ⟨?_, ?_⟩, fun h => h.1 result s' rfl⟩
          · intro _ _ heq
            cases heq
            exact h
          · intro _ _ heq
            cases heq
      | error error =>
          refine ⟨fun h => ⟨?_, ?_⟩, fun h => h.2 error s' rfl⟩
          · intro _ _ heq
            cases heq
          · intro _ _ heq
            cases heq
            exact h

/-- What is known of a block may be used for less. -/
theorem wp_mono {block : Block σ ε α} (h : wp block value' exception' s)
    (hvalue : ∀ result s', value' result s' → value result s')
    (hexception : ∀ error s', exception' error s' → exception error s') :
    wp block value exception s := by
  rw [wp_iff] at h ⊢
  refine ⟨?_, ?_⟩
  · intro result s' hrun
    exact hvalue result s' (h.1 result s' hrun)
  · intro error s' hrun
    exact hexception error s' (h.2 error s' hrun)

/-- What holds after a value and after an exception holds of the state in the end. -/
theorem state_of_wp {block : Block σ ε α} {property : σ → Prop}
    (h : wp block (fun _ => property) (fun _ => property) s) : property (block s).2 := by
  unfold wp at h
  cases hrun : block s with
  | mk ended s' =>
      rw [hrun] at h
      cases ended with
      | ok result => exact h
      | error error => exact h

@[simp]
theorem wp_pure (result : α) :
    wp (pure result : Block σ ε α) value exception s ↔ value result s := Iff.rfl

@[simp]
theorem wp_raise (error : ε) : wp (raise error) value exception s ↔ exception error s := Iff.rfl

@[simp]
theorem wp_read {value : σ → σ → Prop} : wp read value exception s ↔ value s s := Iff.rfl

@[simp]
theorem wp_update (change : σ → σ) {value : Unit → σ → Prop} :
    wp (update change) value exception s ↔ value () (change s) := Iff.rfl

theorem wp_bind {block : Block σ ε α} {next : α → Block σ ε β} {value : β → σ → Prop} :
    wp (block >>= next) value exception s ↔
      wp block (fun result => wp (next result) value exception) exception s := by
  unfold wp
  cases hrun : block s with
  | mk ended s' => cases ended <;> simp only [bind, hrun]

theorem wp_attempt {body : Block σ ε α} {handler : ε → Block σ ε β} {orelse : α → Block σ ε β}
    {value : β → σ → Prop} :
    wp (attempt body handler orelse) value exception s ↔
      wp body (fun result => wp (orelse result) value exception)
        (fun error => wp (handler error) value exception) s := by
  unfold attempt wp
  cases hrun : body s with
  | mk ended s' => cases ended <;> simp only [hrun]

theorem wp_ensuring {body : Block σ ε α} {last : Block σ ε Unit} :
    wp (ensuring body last) value exception s ↔
      wp body (fun result => wp last (fun _ => value result) exception)
        (fun error => wp last (fun _ => exception error) exception) s := by
  unfold ensuring wp
  cases hrun : body s with
  | mk ended s' =>
      cases hlast : last s' with
      | mk left s'' => cases ended <;> cases left <;> simp only [hrun, hlast]

end Block

end FogHttp.Lib
