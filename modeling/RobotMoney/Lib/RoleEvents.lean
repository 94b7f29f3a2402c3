import RobotMoney.Lib.AccessControl
import RobotMoney.Lib.Latest
import RobotMoney.Lib.Run

/-!
# Roles and their events

A role table announces every change of a holder and nothing else: `granted` when an account gains a role that
it does not have, `revoked` when it loses one that it has.  So an account has a role exactly if the last event
about the two is a grant (`run_tracks`).  Who was granted a role and never lost it has it; the converse is
wrong for an account that got the role again.
-/

namespace RobotMoney.Lib

variable {R A : Type}

inductive RoleEvent (R A : Type) where
  | granted (role : R) (account sender : A)
  | revoked (role : R) (account sender : A)
  deriving DecidableEq

inductive RoleCall (R A : Type) where
  | grantRole (role : R) (account : A)
  | revokeRole (role : R) (account : A)
  | renounceRole (role : R) (callerConfirmation : A)

namespace RoleEvent

/-- What an event is about. -/
def subject : RoleEvent R A → R × A
  | granted role account _ => (role, account)
  | revoked role account _ => (role, account)

def isGrant : RoleEvent R A → Bool
  | granted .. => true
  | revoked .. => false

end RoleEvent

namespace Roles

variable [DecidableEq R] [DecidableEq A] {t t' : Roles R A} {role : R} {a : A} {events : List (RoleEvent R A)}

/-- `_grantRole(role, account)` -/
def grant (t : Roles R A) (sender : A) (role : R) (a : A) : Roles R A × List (RoleEvent R A) :=
  if t role a then (t, []) else (t.set role a true, [.granted role a sender])

/-- `_revokeRole(role, account)` -/
def revoke (t : Roles R A) (sender : A) (role : R) (a : A) : Roles R A × List (RoleEvent R A) :=
  if t role a then (t.set role a false, [.revoked role a sender]) else (t, [])

/-- One call, by a sender. -/
def exec (admin : R → R) (t : Roles R A) (x : A × RoleCall R A) : Call Empty (Roles R A × List (RoleEvent R A)) :=
  match x.2 with
  | .grantRole role a => do
    t.check (admin role) x.1
    pure (t.grant x.1 role a)
  | .revokeRole role a => do
    t.check (admin role) x.1
    pure (t.revoke x.1 role a)
  | .renounceRole role callerConfirmation =>
    if callerConfirmation ≠ x.1 then .error .badConfirmation else .ok (t.revoke x.1 role callerConfirmation)

/-- A successful call grants a role or takes one away. -/
theorem exec_ok {admin : R → R} {x : A × RoleCall R A} (h : t.exec admin x = .ok (t', events)) :
    ∃ role a, (t', events) = t.grant x.1 role a ∨ (t', events) = t.revoke x.1 role a := by
  obtain ⟨sender, call⟩ := x
  unfold exec at h
  cases call with
  | grantRole role a =>
    obtain ⟨-, -, h⟩ := bind_eq_ok.mp h
    exact ⟨role, a, .inl (pure_eq_ok.mp h).symm⟩
  | revokeRole role a =>
    obtain ⟨-, -, h⟩ := bind_eq_ok.mp h
    exact ⟨role, a, .inr (pure_eq_ok.mp h).symm⟩
  | renounceRole role c =>
    dsimp only at h
    split at h
    · cases h
    · exact ⟨role, c, .inr (Except.ok.inj h).symm⟩

/-- A constructor grants roles, to begin with. -/
def construct (sender : A) : List (R × A) → Roles R A × List (RoleEvent R A) → Roles R A × List (RoleEvent R A)
  | [], x => x
  | (role, a) :: grants, (t, events) =>
    construct sender grants ((t.grant sender role a).1, events ++ (t.grant sender role a).2)

/-! ### The table and its events -/

/-- The table is what the last events say. -/
def Tracks (t : Roles R A) (events : List (RoleEvent R A)) : Prop :=
  ∀ role a, t role a = ((latest RoleEvent.subject (role, a) events).map RoleEvent.isGrant).getD false

theorem Tracks.nil : Tracks (fun _ _ => false : Roles R A) [] := fun _ _ => rfl

theorem Tracks.set (h : t.Tracks events) {e : RoleEvent R A} (he : e.subject = (role, a)) :
    (t.set role a e.isGrant).Tracks (events ++ [e]) := by
  intro r b
  by_cases hb : r = role ∧ b = a
  · obtain ⟨rfl, rfl⟩ := hb
    rw [latest_snoc_of_eq he, set_same]
    rfl
  · have hne : e.subject ≠ (r, b) := by
      rw [he]
      intro heq
      obtain ⟨rfl, rfl⟩ := Prod.mk.inj heq
      exact hb ⟨rfl, rfl⟩
    rw [latest_snoc_of_ne hne, set_of_ne _ _ (not_and_or.mp hb)]
    exact h r b

theorem Tracks.grant (h : t.Tracks events) (sender : A) :
    (t.grant sender role a).1.Tracks (events ++ (t.grant sender role a).2) := by
  unfold Roles.grant
  split
  · rw [List.append_nil]
    exact h
  · exact h.set (e := .granted role a sender) rfl

theorem Tracks.revoke (h : t.Tracks events) (sender : A) :
    (t.revoke sender role a).1.Tracks (events ++ (t.revoke sender role a).2) := by
  unfold Roles.revoke
  split
  · exact h.set (e := .revoked role a sender) rfl
  · rw [List.append_nil]
    exact h

theorem Tracks.construct (sender : A) (grants : List (R × A)) {x : Roles R A × List (RoleEvent R A)}
    (h : x.1.Tracks x.2) : (construct sender grants x).1.Tracks (construct sender grants x).2 := by
  induction grants generalizing x with
  | nil => exact h
  | cons g grants ih => exact ih (h.grant sender)

/-- The events of a run, after those of the constructor. -/
def eventsIn (start : List (RoleEvent R A)) (log : List ((A × RoleCall R A) × List (RoleEvent R A))) :
    List (RoleEvent R A) :=
  start ++ log.flatMap fun x => x.2

/-- **The events of a run** tell who has which role. -/
theorem run_tracks {admin : R → R} {start : List (RoleEvent R A)} (h : t.Tracks start)
    (calls : List (A × RoleCall R A)) :
    (run (exec admin) t calls).Tracks (eventsIn start (history (exec admin) t calls)) := by
  refine run_invariant (P := fun t log => Tracks t (eventsIn start log)) ?_ ?_
  · unfold eventsIn
    rw [List.flatMap_nil, List.append_nil]
    exact h
  · rintro pre call post t' events - ih hx
    have hevents : eventsIn start (history (exec admin) t pre ++ [(call, events)]) =
        eventsIn start (history (exec admin) t pre) ++ events := by
      unfold eventsIn
      rw [List.flatMap_append, List.flatMap_singleton, List.append_assoc]
    rw [hevents]
    obtain ⟨role, a, hgrant | hrevoke⟩ := exec_ok hx
    · obtain ⟨rfl, rfl⟩ := Prod.mk.injEq .. ▸ hgrant
      exact ih.grant call.1
    · obtain ⟨rfl, rfl⟩ := Prod.mk.injEq .. ▸ hrevoke
      exact ih.revoke call.1

/-- The accounts that an event grants a role, and those that one takes it from. -/
def GrantedIn (events : List (RoleEvent R A)) (role : R) (a : A) : Prop := ∃ sender, .granted role a sender ∈ events

def RevokedIn (events : List (RoleEvent R A)) (role : R) (a : A) : Prop := ∃ sender, .revoked role a sender ∈ events

/-- A holder was granted the role. -/
theorem Tracks.grantedIn (h : t.Tracks events) (ha : t role a = true) : GrantedIn events role a := by
  rw [h role a] at ha
  cases hlast : latest RoleEvent.subject (role, a) events with
  | none =>
    rw [hlast] at ha
    cases ha
  | some e =>
    rw [hlast] at ha
    obtain ⟨hmem, hsubject⟩ := latest_mem hlast
    cases e with
    | granted r b sender =>
      obtain ⟨rfl, rfl⟩ := Prod.mk.inj hsubject
      exact ⟨sender, hmem⟩
    | revoked => cases ha

/-- Who was granted the role and never lost it is a holder. -/
theorem Tracks.holds (h : t.Tracks events) (hgranted : GrantedIn events role a)
    (hrevoked : ¬ RevokedIn events role a) : t role a = true := by
  obtain ⟨sender, hmem⟩ := hgranted
  rw [h role a]
  cases hlast : latest RoleEvent.subject (role, a) events with
  | none => exact absurd hlast (latest_ne_none hmem rfl)
  | some e =>
    obtain ⟨hlatest, hsubject⟩ := latest_mem hlast
    cases e with
    | granted => rfl
    | revoked r b sender' =>
      obtain ⟨rfl, rfl⟩ := Prod.mk.inj hsubject
      exact absurd ⟨sender', hlatest⟩ hrevoked

end Roles

end RobotMoney.Lib
