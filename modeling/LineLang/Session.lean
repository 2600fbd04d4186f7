import LineLang.Value

/-! The state that lines are evaluated in. -/

set_option autoImplicit false

namespace LineLang

def defaultLimit : Nat := 500

/-- The frame in use, the number of calls that are open, and how many may be. Between lines no call
is open. -/
structure Session where
  frame : Frame Value := .empty
  depth : Nat := 0
  limit : Nat := defaultLimit

namespace Session

def get? (session : Session) (name : String) : Option Value :=
  session.frame.get? name

def set (session : Session) (name : String) (value : Value) : Session :=
  { session with frame := session.frame.insert name value }

def bindings (session : Session) : List (String × Value) :=
  session.frame.entries

end Session

/-- What running something in a session leaves. A failure keeps the assignments made before it. -/
structure Outcome (ε α : Type) where
  result : Except ε α
  session : Session

namespace Outcome

variable {ε δ α β : Type}

def bind (outcome : Outcome ε α) (next : α → Session → Outcome ε β) : Outcome ε β :=
  match outcome.result with
  | .ok value => next value outcome.session
  | .error error => ⟨.error error, outcome.session⟩

@[simp] theorem bind_ok (value : α) (session : Session) (next : α → Session → Outcome ε β) :
    (⟨.ok value, session⟩ : Outcome ε α).bind next = next value session := rfl

@[simp] theorem bind_error (error : ε) (session : Session) (next : α → Session → Outcome ε β) :
    (⟨.error error, session⟩ : Outcome ε α).bind next = ⟨.error error, session⟩ := rfl

def mapError (name : ε → δ) (outcome : Outcome ε α) : Outcome δ α :=
  ⟨outcome.result.mapError name, outcome.session⟩

end Outcome

end LineLang
