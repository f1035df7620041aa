import XmipIdentify.Library.Str

/-!
# The gate's one error

`IdentifyError` carries a message. A failure of the DER reader is taken over
message for message, as its `From` conversion does.
-/

namespace XmipIdentify

set_option autoImplicit false

structure IdentifyError where
  message : String
deriving DecidableEq, Repr

structure CodecError where
  message : String
deriving DecidableEq, Repr

structure Asn1Error where
  message : String
deriving DecidableEq, Repr

def IdentifyError.new (message : String) : IdentifyError := ⟨message⟩

/-- `Self::new(error.message)`. -/
def Asn1Error.into (error : Asn1Error) : IdentifyError := .new error.message

theorem ok_bind {ε α β : Type} (a : α) (f : α → Except ε β) : (Except.ok a >>= f) = f a := rfl

theorem bind_eq_ok_iff {ε α β : Type} (x : Except ε α) (f : α → Except ε β) (b : β) :
    (x >>= f) = .ok b ↔ ∃ a, x = .ok a ∧ f a = .ok b := by
  cases x with
  | error e => exact ⟨(nomatch ·), fun ⟨_, h, _⟩ => nomatch h⟩
  | ok a =>
    constructor
    · intro h
      exact ⟨a, rfl, h⟩
    · rintro ⟨_, ha, h⟩
      cases ha
      exact h

end XmipIdentify
