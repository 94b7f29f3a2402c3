import RobotMoney.Lib.AccessControl
import RobotMoney.Lib.Run

/-!
# The holders of a role over a run

Who holds a role changes in three ways only: a holder of its admin role grants it, a holder of its admin role
takes it away, or a holder gives it up.  `RoleStep` says that of one call, one role, and the accounts that the
call names.

For a role that administers itself the holders are a closed circle: over a run of any calls by anybody, an
outsider gets in only if somebody of the circle names her (`run_within`), and somebody of the circle gets out
only if one of them names her (`run_holds`).  For a role that another one administers, only the calls of the
holders of that one matter (`run_administered`).
-/

namespace RobotMoney.Lib

variable {R A : Type}

/-- What a call of `sender` does to the holders of a role, where `gives` and `takes` are the accounts that it
names. -/
structure RoleStep (admin : R → R) (role : R) (sender : A) (gives takes : A → Prop) (t t' : Roles R A) :
    Prop where
  gained : ∀ a, t role a = false → t' role a = true → t (admin role) sender = true ∧ gives a
  lost : ∀ a, t role a = true → t' role a = false → takes a ∧ (a = sender ∨ t (admin role) sender = true)

namespace RoleStep

variable {admin : R → R} {role : R} {sender : A} {gives takes : A → Prop} {t t' : Roles R A}

theorem of_eq (h : ∀ a, t' role a = t role a) : RoleStep admin role sender gives takes t t' := by
  constructor
  · intro a hfalse htrue
    rw [h, hfalse] at htrue
    cases htrue
  · intro a htrue hfalse
    rw [h, htrue] at hfalse
    cases hfalse

/-- Who is not named has the role after the call if and only if she had it before. -/
theorem frame (h : RoleStep admin role sender gives takes t t') {a : A} (hgives : ¬ gives a) (htakes : ¬ takes a) :
    t' role a = t role a := by
  cases hbefore : t role a with
  | false =>
    by_contra hafter
    exact hgives (h.gained a hbefore (Bool.not_eq_false _ ▸ hafter)).2
  | true =>
    by_contra hafter
    exact htakes (h.lost a hbefore (Bool.not_eq_true _ ▸ hafter)).1

/-- The step of a role is that of the same role under another name, in another table. -/
theorem lift {R' : Type} {admin' : R' → R'} {role' : R'} {gives' takes' : A → Prop} {u u' : Roles R' A}
    (h : RoleStep admin role sender gives takes t t') (hu : u role' = t role) (hu' : u' role' = t' role)
    (hadmin : u (admin' role') = t (admin role)) (hgives : ∀ a, gives a → gives' a)
    (htakes : ∀ a, takes a → takes' a) : RoleStep admin' role' sender gives' takes' u u' := by
  constructor
  · intro a hfalse htrue
    rw [hu] at hfalse
    rw [hu'] at htrue
    obtain ⟨hsender, hnamed⟩ := h.gained a hfalse htrue
    exact ⟨hadmin ▸ hsender, hgives a hnamed⟩
  · intro a htrue hfalse
    rw [hu] at htrue
    rw [hu'] at hfalse
    obtain ⟨hnamed, hwho⟩ := h.lost a htrue hfalse
    exact ⟨htakes a hnamed, hwho.imp_right fun hsender => hadmin ▸ hsender⟩

variable [DecidableEq R] [DecidableEq A] {r : R} {account : A}

theorem of_set_true (hadmin : t (admin r) sender = true) (hgives : r = role → gives account) :
    RoleStep admin role sender gives takes t (t.set r account true) := by
  constructor
  · intro a hfalse htrue
    by_cases hra : role = r ∧ a = account
    · obtain ⟨rfl, rfl⟩ := hra
      exact ⟨hadmin, hgives rfl⟩
    · rw [Roles.set_of_ne _ _ (not_and_or.mp hra), hfalse] at htrue
      cases htrue
  · intro a htrue hfalse
    by_cases hra : role = r ∧ a = account
    · obtain ⟨rfl, rfl⟩ := hra
      rw [Roles.set_same] at hfalse
      cases hfalse
    · rw [Roles.set_of_ne _ _ (not_and_or.mp hra), htrue] at hfalse
      cases hfalse

theorem of_set_false (hadmin : account = sender ∨ t (admin r) sender = true) (htakes : r = role → takes account) :
    RoleStep admin role sender gives takes t (t.set r account false) := by
  constructor
  · intro a hfalse htrue
    by_cases hra : role = r ∧ a = account
    · obtain ⟨rfl, rfl⟩ := hra
      rw [Roles.set_same] at htrue
      cases htrue
    · rw [Roles.set_of_ne _ _ (not_and_or.mp hra), hfalse] at htrue
      cases htrue
  · intro a htrue hfalse
    by_cases hra : role = r ∧ a = account
    · obtain ⟨rfl, rfl⟩ := hra
      exact ⟨htakes rfl, hadmin⟩
    · rw [Roles.set_of_ne _ _ (not_and_or.mp hra), htrue] at hfalse
      cases hfalse

variable {ε : Type} {grant : Roles R A → R → A → Call ε (Roles R A)}

theorem of_grantRole (hgrant : ∀ {t t' : Roles R A}, grant t r account = .ok t' → t' = t.set r account true)
    (h : Roles.grantRole grant admin t sender r account = .ok t') (hgives : r = role → gives account) :
    RoleStep admin role sender gives takes t t' := by
  obtain ⟨_, hcheck, hset⟩ := bind_eq_ok.mp h
  rw [hgrant hset]
  exact of_set_true (Roles.check_eq_ok.mp hcheck) hgives

theorem of_revokeRole (h : (Roles.revokeRole admin t sender r account : Call ε (Roles R A)) = .ok t')
    (htakes : r = role → takes account) : RoleStep admin role sender gives takes t t' := by
  obtain ⟨_, hcheck, hset⟩ := bind_eq_ok.mp h
  rw [← pure_eq_ok.mp hset]
  exact of_set_false (.inr (Roles.check_eq_ok.mp hcheck)) htakes

theorem of_renounceRole (h : (Roles.renounceRole t sender r account : Call ε (Roles R A)) = .ok t')
    (htakes : r = role → takes account) : RoleStep admin role sender gives takes t t' := by
  unfold Roles.renounceRole at h
  split at h
  · cases h
  · rename_i hsender
    cases h
    exact of_set_false (.inl (not_not.mp hsender)) htakes

end RoleStep

/-! ### Runs -/

variable {σ ι ρ ε : Type} {exec : σ → ι → Call ε (σ × ρ)} {table : σ → Roles R A} {sender : ι → A}
  {gives takes gives' takes' : ι → A → Prop} {admin : R → R} {role boss : R} {s₀ : σ} {is : List ι}

/-- Every call makes a step of the role. -/
def Stepwise (exec : σ → ι → Call ε (σ × ρ)) (table : σ → Roles R A) (admin : R → R) (role : R) (sender : ι → A)
    (gives takes : ι → A → Prop) : Prop :=
  ∀ s i s' r, exec s i = .ok (s', r) → RoleStep admin role (sender i) (gives i) (takes i) (table s) (table s')

/-- Who has the role in the second table has it in the first. -/
def Within (role : R) (t₀ t : Roles R A) : Prop := ∀ a, t role a = true → t₀ role a = true

theorem Within.step {t₀ t t' : Roles R A} {sender : A} {gives takes : A → Prop} (h : Within role t₀ t)
    (hstep : RoleStep admin role sender gives takes t t')
    (hgives : t (admin role) sender = true → ∀ a, gives a → t₀ role a = true) : Within role t₀ t' := by
  intro a ha
  cases hbefore : t role a with
  | true => exact h a hbefore
  | false =>
    obtain ⟨hadmin, hnamed⟩ := hstep.gained a hbefore ha
    exact hgives hadmin a hnamed

theorem mem_of_split {pre post : List ι} {i : ι} (h : is = pre ++ i :: post) : i ∈ is := by
  rw [h]
  exact List.mem_append_right _ List.mem_cons_self

/-- Nobody outside the circle of holders gets a role that administers itself, unless a holder names her. -/
theorem run_within (hsteps : Stepwise exec table admin role sender gives takes) (hself : admin role = role)
    (hgives : ∀ i ∈ is, table s₀ role (sender i) = true → ∀ a, gives i a → table s₀ role a = true) :
    Within role (table s₀) (table (run exec s₀ is)) := by
  refine run_invariant (P := fun s _ => Within role (table s₀) (table s)) (fun a h => h) ?_
  intro pre i post s' r hsplit ih hx
  refine ih.step (hsteps _ _ _ _ hx) fun hadmin => ?_
  rw [hself] at hadmin
  exact hgives i (mem_of_split hsplit) (ih _ hadmin)

/-- Nobody leaves the circle of a role that administers itself, unless a holder names her. -/
theorem run_holds (hsteps : Stepwise exec table admin role sender gives takes) (hself : admin role = role)
    (hgives : ∀ i ∈ is, table s₀ role (sender i) = true → ∀ a, gives i a → table s₀ role a = true) {a : A}
    (ha : table s₀ role a = true) (htakes : ∀ i ∈ is, table s₀ role (sender i) = true → ¬ takes i a) :
    table (run exec s₀ is) role a = true := by
  refine run_invariant (P := fun s _ => table s role a = true) ha ?_
  intro pre i post s' r hsplit ih hx
  have hwithin : Within role (table s₀) (table (run exec s₀ pre)) := by
    refine run_within hsteps hself fun j hj => hgives j ?_
    rw [hsplit]
    exact List.mem_append_left _ hj
  by_contra hlost
  obtain ⟨hnamed, hsender⟩ := (hsteps _ _ _ _ hx).lost a ih (Bool.not_eq_true _ ▸ hlost)
  -- by her own call or by an admin's, it is a call of a holder
  have hholder : table (run exec s₀ pre) role (sender i) = true := by
    rcases hsender with rfl | hadmin
    · exact ih
    · rwa [hself] at hadmin
  exact htakes i (mem_of_split hsplit) (hwithin _ hholder) hnamed

/-- While the holders of a role that administers itself make no call, they stay its holders. -/
theorem run_quiet (hsteps : Stepwise exec table admin boss sender gives takes) (hself : admin boss = boss)
    (hquiet : ∀ i ∈ is, table s₀ boss (sender i) = false) (a : A) :
    table (run exec s₀ is) boss a = table s₀ boss a := by
  have hnone : ∀ i ∈ is, table s₀ boss (sender i) = true → ∀ {p : Prop}, p := by
    intro i hi htrue
    rw [hquiet i hi] at htrue
    cases htrue
  cases ha : table s₀ boss a with
  | true => exact run_holds hsteps hself (fun i hi hi' => hnone i hi hi') ha fun i hi hi' => hnone i hi hi'
  | false =>
    have hwithin := run_within hsteps hself fun i hi hi' => hnone i hi hi'
    by_contra htrue
    rw [hwithin a (Bool.not_eq_false _ ▸ htrue)] at ha
    cases ha

/-- And nobody gets a role that it administers. -/
theorem run_administered (hboss : Stepwise exec table admin boss sender gives takes) (hself : admin boss = boss)
    (hsteps : Stepwise exec table admin role sender gives' takes') (hrole : admin role = boss)
    (hquiet : ∀ i ∈ is, table s₀ boss (sender i) = false) :
    Within role (table s₀) (table (run exec s₀ is)) := by
  refine run_invariant (P := fun s _ => Within role (table s₀) (table s)) (fun a h => h) ?_
  intro pre i post s' r hsplit ih hx
  have hpre : ∀ j ∈ pre, table s₀ boss (sender j) = false := by
    intro j hj
    refine hquiet j ?_
    rw [hsplit]
    exact List.mem_append_left _ hj
  refine ih.step (hsteps _ _ _ _ hx) fun hadmin => ?_
  rw [hrole, run_quiet hboss hself hpre, hquiet i (mem_of_split hsplit)] at hadmin
  cases hadmin

end RobotMoney.Lib
