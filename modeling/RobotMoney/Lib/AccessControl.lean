import RobotMoney.Lib.Revert

/-!
# Role-based access

Who holds which role, and the three entry points by which holders change: a holder of the role's admin
role grants and revokes it, and anybody renounces a role of her own.  How a role is granted is a
parameter of `grantRole`: contracts override the internal grant.
-/

set_option linter.unusedSectionVars false

namespace RobotMoney.Lib

/-- The holders of every role. -/
abbrev Roles (R A : Type) : Type := R → A → Bool

namespace Roles

variable {R A ε : Type} [DecidableEq R] [DecidableEq A]

/-- The role table with one entry set. -/
def set (t : Roles R A) (role : R) (a : A) (v : Bool) : Roles R A :=
  fun r b => if r = role ∧ b = a then v else t r b

@[simp] theorem set_same (t : Roles R A) (role : R) (a : A) (v : Bool) : t.set role a v role a = v := by
  simp [set]

theorem set_of_ne (t : Roles R A) {role r : R} {a b : A} (v : Bool) (h : r ≠ role ∨ b ≠ a) :
    t.set role a v r b = t r b := by
  unfold set
  split
  · rename_i h'
    rcases h with h | h
    · exact absurd h'.1 h
    · exact absurd h'.2 h
  · rfl

/-- `_checkRole(role, account)` -/
def check (t : Roles R A) (role : R) (a : A) : Call ε Unit :=
  if t role a then .ok () else .error .unauthorizedAccount

theorem check_eq_ok {t : Roles R A} {role : R} {a : A} {u : Unit} :
    (t.check role a : Call ε Unit) = .ok u ↔ t role a = true := by
  unfold check
  split <;> simp_all

theorem check_avoids {t : Roles R A} {role : R} {a : A} {e : ε} : Avoids e (t.check role a) := by
  unfold check
  split <;> intro h <;> cases h

/-- `grantRole(role, account)`, with the internal grant of the contract. -/
def grantRole (grant : Roles R A → R → A → Call ε (Roles R A)) (admin : R → R) (t : Roles R A)
    (sender : A) (role : R) (a : A) : Call ε (Roles R A) := do
  t.check (admin role) sender
  grant t role a

/-- `revokeRole(role, account)` -/
def revokeRole (admin : R → R) (t : Roles R A) (sender : A) (role : R) (a : A) :
    Call ε (Roles R A) := do
  t.check (admin role) sender
  pure (t.set role a false)

/-- `renounceRole(role, callerConfirmation)` -/
def renounceRole (t : Roles R A) (sender : A) (role : R) (confirmation : A) :
    Call ε (Roles R A) :=
  if confirmation ≠ sender then .error .badConfirmation
  else .ok (t.set role confirmation false)

end Roles

end RobotMoney.Lib
