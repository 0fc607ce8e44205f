import Protobuf.Names.Ident

/-! # Scopes

A scope is a place where no two things may have the same identifier.  Each thing asks
for the identifier that it would like; if it is taken, underscores are put behind it
until it is not.

* `Scope.claim` and `Scope.claimAll`.
* `length_claimAll`: whoever asks gets an identifier.
-/

namespace Protobuf

/-- A scope: the words that are taken in it.  Raw form makes no difference to them. -/
structure Scope where
  taken : List String := []
deriving DecidableEq, Repr

namespace Scope

/-- The first identifier that is not taken, trying longer ones so many times. -/
def free (taken : List String) : (attempts : Nat) → Ident → Ident
  | 0, i => i
  | attempts + 1, i =>
    if taken.contains i.word then free taken attempts (Ident.ofText (i.word ++ "_")) else i

/-- Claims an identifier, or the first longer one that is not taken.  No more have to be
    tried than there are words that are taken. -/
def claim (s : Scope) (wish : Ident) : Ident × Scope :=
  let i := free s.taken s.taken.length wish
  (i, ⟨i.word :: s.taken⟩)

/-- What is claimed is taken from then on. -/
theorem taken_claim (s : Scope) (wish : Ident) :
    (s.claim wish).2.taken = (s.claim wish).1.word :: s.taken := rfl

def claimAll : List Ident → Scope → List Ident × Scope
  | [], s => ([], s)
  | wish :: rest, s =>
    let (i, s) := s.claim wish
    let (is, s) := claimAll rest s
    (i :: is, s)

/-- Every wish is granted in some form. -/
theorem length_claimAll (wishes : List Ident) (s : Scope) :
    (claimAll wishes s).1.length = wishes.length := by
  induction wishes generalizing s with
  | nil => rfl
  | cons wish rest ih => simp [claimAll, ih]

end Scope

end Protobuf
