/-!
# Tokens and handles

A session shares one flag with its handles and with the builds it has under way: up means disposed.
The flags stand in one place, `Flags`, and a token names one of them, so all who hold copies of a
token look at the same flag. A flag that is up stays up.
-/

namespace StatementOutline

/-- Names a flag. -/
structure Token where
  number : Nat
  deriving DecidableEq, Repr

/-- The flags of the tokens issued so far. -/
structure Flags where
  issued : Nat := 0
  /-- The tokens whose flag is up. -/
  up : List Token := []
  deriving DecidableEq, Repr

namespace Flags

/-- A token that nobody holds yet, with its flag down. -/
def issue (flags : Flags) : Token × Flags :=
  (⟨flags.issued⟩, { flags with issued := flags.issued + 1 })

/-- The flag of the token is up. -/
def isUp (flags : Flags) (token : Token) : Bool :=
  flags.up.contains token

/-- Put the flag of the token up. -/
def raise (flags : Flags) (token : Token) : Flags :=
  { flags with up := flags.up.insert token }

/-- Put the flag of the token up, if the condition holds. -/
def raiseIf (flags : Flags) (token : Token) (condition : Bool) : Flags :=
  if condition then flags.raise token else flags

variable {flags : Flags} {token : Token}

@[simp] theorem isUp_raise (flags : Flags) (token : Token) :
    (flags.raise token).isUp token = true := by
  simp [isUp, raise]

/-- No flag goes down when another is put up. -/
theorem isUp_raise_of_isUp (h : flags.isUp token = true) (other : Token) :
    (flags.raise other).isUp token = true := by
  simp only [isUp, raise, List.contains_iff_mem] at h ⊢
  exact List.mem_insert_of_mem h

@[simp] theorem raiseIf_true (flags : Flags) (token : Token) :
    flags.raiseIf token true = flags.raise token := rfl

@[simp] theorem raiseIf_false (flags : Flags) (token : Token) :
    flags.raiseIf token false = flags := rfl

end Flags

/-- Disposes a session from elsewhere. -/
structure Handle where
  token : Token
  deriving DecidableEq, Repr

namespace Handle

/-- A second handle that does what this one does. -/
def copy (handle : Handle) : Handle :=
  ⟨handle.token⟩

/-- Dispose the session. -/
def dispose (handle : Handle) (flags : Flags) : Flags :=
  flags.raise handle.token

/-- The session is disposed. -/
def isDisposed (handle : Handle) (flags : Flags) : Bool :=
  flags.isUp handle.token

end Handle

end StatementOutline
