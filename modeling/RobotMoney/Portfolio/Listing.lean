import RobotMoney.Lib.Run
import RobotMoney.Portfolio.Registry

/-!
# The registry agrees with itself

The registry keeps a list of its vaults, the same as a flag on every address, a flag for eligibility, and
a count of the flags set.  `Listed` says that the four agree, and it holds after every run of calls,
whatever the linked router answers in between (`registry_consistent`).

What a successful call can do to the four is said once, in `Effect`.
-/

namespace RobotMoney.Portfolio

open RobotMoney.Lib

namespace Registry

variable {g g' g₀ : Registry} {i : Tx RegistryCall × (Address → Option ℕ)} {events : List RegistryEvent}
  {vault : Address}

/-! ### What a call does -/

theorem newCount_eq_ok {eligible : Bool} {n : ℕ} : g.newCount eligible = .ok n ↔
    if eligible then g.routerEligibleCount + 1 < wordSize ∧ n = g.routerEligibleCount + 1
    else 1 ≤ g.routerEligibleCount ∧ n = g.routerEligibleCount - 1 := by
  unfold newCount
  cases eligible
  · exact subU_eq_ok
  · exact addU_eq_ok

/-- A change of eligibility passes for an admin and a registered vault; where it changes anything, the
linked router has no default vector or one as long as the new count. -/
theorem setRouterEligible_iff {answers : Address → Option ℕ} {sender : Address} {eligible : Bool} :
    g.setRouterEligible answers sender vault eligible = .ok (g', events) ↔
      g.roles .adminRole sender = true ∧ g.registered vault = true ∧
        events = [.routerEligibilityChanged vault (g.routerEligible vault) eligible] ∧
        (g.routerEligible vault = eligible ∧ g' = g ∨
          g.routerEligible vault ≠ eligible ∧ ∃ n l, g.newCount eligible = .ok n ∧
            g.linkedLength answers = .ok l ∧ (l = 0 ∨ l = n) ∧
            g' = { g with routerEligibleCount := n
                          routerEligible := Function.update g.routerEligible vault eligible }) := by
  unfold setRouterEligible
  simp only [bind_eq_ok, Roles.check_eq_ok, revertIf_eq_ok, exists_const, Bool.not_eq_false]
  refine and_congr_right fun _ => and_congr_right fun _ => ?_
  by_cases hold : g.routerEligible vault = eligible
  · subst hold
    rw [if_pos rfl, pure_eq_ok, Prod.mk.injEq]
    constructor
    · rintro ⟨rfl, rfl⟩
      exact ⟨rfl, .inl ⟨rfl, rfl⟩⟩
    · rintro ⟨rfl, ⟨-, rfl⟩ | ⟨hne, -⟩⟩
      · exact ⟨rfl, rfl⟩
      · exact absurd rfl hne
  · simp only [hold, if_false, bind_eq_ok, revertIf_eq_ok, exists_const, pure_eq_ok, Prod.mk.injEq,
      false_and, false_or]
    constructor
    · rintro ⟨n, hn, l, hl, hlen, rfl, rfl⟩
      refine ⟨rfl, hold, n, l, hn, hl, ?_, rfl⟩
      by_contra hstale
      exact hlen (not_or.mp hstale)
    · rintro ⟨rfl, -, n, l, hn, hl, hlen, rfl⟩
      exact ⟨n, hn, l, hl, fun hstale => not_or.mpr hstale hlen, rfl, rfl⟩

/-- What a successful call does: a vault is registered, the eligibility of a vault is changed, a router is
linked, or nothing happens but to the status of vaults and to the roles. -/
inductive Effect (g : Registry) (i : Tx RegistryCall × (Address → Option ℕ)) : Registry → Prop
  | register {vault : Address} (metadata : Address → VaultMetadata) (status : Address → VaultStatus)
      (hvault : vault ≠ 0) (hnew : g.registered vault = false) :
      Effect g i
        { g with registered := Function.update g.registered vault true, vaults := g.vaults ++ [vault],
                 metadata, status }
  | change {vault : Address} {eligible : Bool} {n l : ℕ}
      (hcall : i.1.call = .setRouterEligible vault eligible)
      (hadmin : g.roles .adminRole i.1.sender = true) (hreg : g.registered vault = true)
      (hne : g.routerEligible vault ≠ eligible) (hn : g.newCount eligible = .ok n)
      (hl : g.linkedLength i.2 = .ok l) (hlen : l = 0 ∨ l = n) :
      Effect g i
        { g with routerEligibleCount := n
                 routerEligible := Function.update g.routerEligible vault eligible }
  | link {newRouter : Address} (hcall : i.1.call = .setRouter newRouter)
      (hadmin : g.roles .adminRole i.1.sender = true) : Effect g i { g with router := newRouter }
  | other (status : Address → VaultStatus) (roles : Roles AdminRole Address) :
      Effect g i { g with status, roles }

theorem onRoles_effect {x : Call RegistryError (Roles AdminRole Address)}
    (h : g.onRoles x = .ok (g', events)) : Effect g i g' := by
  obtain ⟨roles, -, h⟩ := bind_eq_ok.mp h
  cases h
  exact .other g.status roles

theorem exec_effect (h : g.exec i = .ok (g', events)) : Effect g i g' := by
  unfold exec at h
  split at h
  case h_1 vault name asset hcall =>
    simp only [registerVault, bind_eq_ok, revertIf_eq_ok, exists_const, pure_eq_ok, Prod.mk.injEq] at h
    obtain ⟨-, -, hvault, hnew, rfl, -⟩ := h
    exact .register _ _ hvault (Bool.eq_false_iff.mpr hnew)
  case h_2 vault newStatus hcall =>
    simp only [setVaultStatus, bind_eq_ok, pure_eq_ok, Prod.mk.injEq] at h
    obtain ⟨-, -, -, -, rfl, -⟩ := h
    exact .other _ g.roles
  case h_3 vault eligible hcall =>
    obtain ⟨hadmin, hreg, -, ⟨-, rfl⟩ | ⟨hne, n, l, hn, hl, hlen, rfl⟩⟩ := setRouterEligible_iff.mp h
    · exact .other g'.status g'.roles
    · exact .change hcall hadmin hreg hne hn hl hlen
  case h_4 newRouter hcall =>
    simp only [setRouter, bind_eq_ok, Roles.check_eq_ok, exists_const, pure_eq_ok, Prod.mk.injEq] at h
    obtain ⟨hadmin, -, -, -, -, rfl, -⟩ := h
    exact .link hcall hadmin
  case h_5 => exact onRoles_effect h
  case h_6 => exact onRoles_effect h
  case h_7 => exact onRoles_effect h

/-! ### The invariant -/

/-- The addresses marked eligible. -/
def eligibleVaults (g : Registry) : Finset Address :=
  Finset.univ.filter fun a => g.routerEligible a = true

/-- The list, the flags and the count agree. -/
structure Listed (g : Registry) : Prop where
  nodup : g.vaults.Nodup
  listed : ∀ a, a ∈ g.vaults ↔ g.registered a = true
  ne_zero : ∀ a, g.registered a = true → a ≠ 0
  eligible : ∀ a, g.routerEligible a = true → g.registered a = true
  count : g.routerEligibleCount = g.eligibleVaults.card

theorem mem_eligibleVaults {a : Address} : a ∈ g.eligibleVaults ↔ g.routerEligible a = true := by
  unfold eligibleVaults
  rw [Finset.mem_filter]
  exact and_iff_right (Finset.mem_univ a)

/-- One more eligible vault. -/
theorem eligibleVaults_true (g : Registry) (vault : Address) (n : ℕ) :
    eligibleVaults { g with routerEligibleCount := n
                            routerEligible := Function.update g.routerEligible vault true } =
      insert vault g.eligibleVaults := by
  ext a
  rw [mem_eligibleVaults, Finset.mem_insert, mem_eligibleVaults]
  by_cases ha : a = vault
  · subst ha
    simp
  · simp [ha]

/-- One less. -/
theorem eligibleVaults_false (g : Registry) (vault : Address) (n : ℕ) :
    eligibleVaults { g with routerEligibleCount := n
                            routerEligible := Function.update g.routerEligible vault false } =
      g.eligibleVaults.erase vault := by
  ext a
  rw [mem_eligibleVaults, Finset.mem_erase, mem_eligibleVaults]
  by_cases ha : a = vault
  · subst ha
    simp
  · simp [ha]

namespace Listed

/-- A vault is registered. -/
theorem register (h : Listed g) (metadata : Address → VaultMetadata) (status : Address → VaultStatus)
    (hvault : vault ≠ 0) (hnew : g.registered vault = false) :
    Listed { g with registered := Function.update g.registered vault true, vaults := g.vaults ++ [vault],
                    metadata, status } := by
  have hout : vault ∉ g.vaults := by
    rw [h.listed, hnew]
    exact Bool.false_ne_true
  refine ⟨?_, ?_, ?_, ?_, h.count⟩
  · exact h.nodup.append (List.nodup_singleton vault) (by simpa using hout)
  · intro a
    change a ∈ g.vaults ++ [vault] ↔ Function.update g.registered vault true a = true
    by_cases ha : a = vault
    · subst ha
      simp
    · simp [ha, h.listed]
  · intro a ha
    change Function.update g.registered vault true a = true at ha
    by_cases hav : a = vault
    · rw [hav]
      exact hvault
    · rw [Function.update_of_ne hav] at ha
      exact h.ne_zero a ha
  · intro a ha
    change Function.update g.registered vault true a = true
    by_cases hav : a = vault
    · rw [hav, Function.update_self]
    · rw [Function.update_of_ne hav]
      exact h.eligible a ha

/-- The eligibility of a registered vault is changed. -/
theorem change (h : Listed g) {eligible : Bool} {n : ℕ} (hreg : g.registered vault = true)
    (hne : g.routerEligible vault ≠ eligible) (hn : g.newCount eligible = .ok n) :
    Listed { g with routerEligibleCount := n
                    routerEligible := Function.update g.routerEligible vault eligible } := by
  refine ⟨h.nodup, h.listed, h.ne_zero, ?_, ?_⟩
  · intro a ha
    change Function.update g.routerEligible vault eligible a = true at ha
    by_cases hav : a = vault
    · rw [hav]
      exact hreg
    · rw [Function.update_of_ne hav] at ha
      exact h.eligible a ha
  · rw [newCount_eq_ok] at hn
    cases eligible with
    | true =>
      obtain ⟨-, rfl⟩ := hn
      have hout : vault ∉ g.eligibleVaults := fun hin => hne (mem_eligibleVaults.mp hin)
      rw [eligibleVaults_true, Finset.card_insert_of_notMem hout]
      exact congrArg (· + 1) h.count
    | false =>
      obtain ⟨-, rfl⟩ := hn
      have hin : vault ∈ g.eligibleVaults := mem_eligibleVaults.mpr (Bool.eq_true_of_not_eq_false hne)
      rw [eligibleVaults_false, Finset.card_erase_of_mem hin]
      exact congrArg (· - 1) h.count

theorem step (h : Listed g) (he : Effect g i g') : Listed g' := by
  cases he with
  | register metadata status hvault hnew => exact h.register metadata status hvault hnew
  | change _ _ hreg hne hn => exact h.change hreg hne hn
  | link _ _ => exact ⟨h.nodup, h.listed, h.ne_zero, h.eligible, h.count⟩
  | other _ _ => exact ⟨h.nodup, h.listed, h.ne_zero, h.eligible, h.count⟩

/-- The count is that of accounts, so it fits a word with room for one more. -/
theorem count_lt (h : Listed g) : g.routerEligibleCount + 1 < wordSize := by
  have hle : g.eligibleVaults.card ≤ 2 ^ 160 := by
    have hcard : Fintype.card Address = 2 ^ 160 := Fintype.card_fin _
    rw [← hcard]
    exact Finset.card_le_univ _
  have hword : 2 ^ 160 + 1 < wordSize := by decide
  rw [h.count]
  omega

/-- The count of eligible vaults can be changed by one whenever a vault changes. -/
theorem newCount_ok (h : Listed g) {eligible : Bool} (hne : g.routerEligible vault ≠ eligible) :
    ∃ n, g.newCount eligible = .ok n := by
  cases eligible with
  | true => exact ⟨_, newCount_eq_ok.mpr ⟨h.count_lt, rfl⟩⟩
  | false =>
    have hin : vault ∈ g.eligibleVaults := mem_eligibleVaults.mpr (Bool.eq_true_of_not_eq_false hne)
    refine ⟨_, newCount_eq_ok.mpr ⟨?_, rfl⟩⟩
    rw [h.count]
    exact Finset.card_pos.mpr ⟨vault, hin⟩

/-- `setRouterEligible` never panics. -/
theorem setRouterEligible_ne_panic (h : Listed g) (answers : Address → Option ℕ) (sender vault : Address)
    (eligible : Bool) (e : Panic) : g.setRouterEligible answers sender vault eligible ≠ .error (.panic e) := by
  intro hpanic
  unfold setRouterEligible at hpanic
  rcases bind_eq_error.mp hpanic with hcheck | ⟨-, -, hpanic⟩
  · unfold Roles.check at hcheck
    split at hcheck <;> cases hcheck
  rcases bind_eq_error.mp hpanic with hreg | ⟨-, -, hpanic⟩
  · obtain ⟨-, hreg⟩ := revertIf_eq_error.mp hreg
    cases hreg
  dsimp only at hpanic
  split at hpanic
  · cases hpanic
  · rename_i hne
    obtain ⟨n, hn⟩ := h.newCount_ok hne
    rw [hn, ok_bind] at hpanic
    rcases bind_eq_error.mp hpanic with hlen | ⟨l, -, hpanic⟩
    · unfold linkedLength at hlen
      split at hlen
      · cases hlen
      · split at hlen <;> cases hlen
    · rcases bind_eq_error.mp hpanic with hstale | ⟨-, -, hpanic⟩
      · obtain ⟨-, hstale⟩ := revertIf_eq_error.mp hstale
        cases hstale
      · cases hpanic

end Listed

theorem deploy_listed {admin : Address} (h : deploy admin = .ok g₀) : Listed g₀ := by
  simp only [deploy, bind_eq_ok, pure_eq_ok] at h
  obtain ⟨-, -, rfl⟩ := h
  refine ⟨List.nodup_nil, by simp, by simp, by simp, ?_⟩
  simp [eligibleVaults]

theorem run_listed (h : Listed g) (calls : List (Tx RegistryCall × (Address → Option ℕ))) :
    Listed (run exec g calls) := by
  refine run_invariant (P := fun g _ => Listed g) h ?_
  intro pre i post g' events _ hpre hok
  exact hpre.step (exec_effect hok)

/-- **The registry agrees with itself.**  After every run of calls, the list has no duplicates and is the
list of the registered addresses, the eligible addresses are registered, the count is their number, and
no change of eligibility panics. -/
theorem registry_consistent {admin : Address} (h : deploy admin = .ok g₀)
    (calls : List (Tx RegistryCall × (Address → Option ℕ))) :
    (run exec g₀ calls).vaults.Nodup ∧
    (∀ a, a ∈ (run exec g₀ calls).vaults ↔ (run exec g₀ calls).registered a = true) ∧
    (∀ a, (run exec g₀ calls).routerEligible a = true → (run exec g₀ calls).registered a = true) ∧
    (run exec g₀ calls).routerEligibleCount =
      (Finset.univ.filter fun a => (run exec g₀ calls).routerEligible a = true).card ∧
    ∀ answers sender vault eligible e,
      (run exec g₀ calls).setRouterEligible answers sender vault eligible ≠ .error (.panic e) := by
  have hlisted := run_listed (deploy_listed h) calls
  exact ⟨hlisted.nodup, hlisted.listed, hlisted.eligible, hlisted.count,
    hlisted.setRouterEligible_ne_panic⟩

/-- Two vaults are registered and made eligible, and one of them no longer is. -/
def toggles : List (Tx RegistryCall × (Address → Option ℕ)) :=
  [(.of 3 (.of 1 1) (.registerVault 10 "stable" 2), fun _ => none),
    (.of 3 (.of 1 1) (.registerVault 11 "yield" 2), fun _ => none),
    (.of 3 (.of 2 2) (.setRouterEligible 10 true), fun _ => none),
    (.of 3 (.of 2 2) (.setRouterEligible 11 true), fun _ => none),
    (.of 3 (.of 3 3) (.setRouterEligible 11 false), fun _ => none)]

/-- The registry after its constructor, with the admin `3`. -/
def newRegistry : Registry where
  metadata _ := ⟨"", 0, 0⟩
  status _ := .active
  vaults := []
  registered _ := false
  routerEligible _ := false
  routerEligibleCount := 0
  router := 0
  roles := soleAdmin 3

theorem deploy_newRegistry : deploy 3 = .ok newRegistry := rfl

theorem registry_consistent_sample :
    (run exec newRegistry toggles).vaults = [10, 11] ∧ (run exec newRegistry toggles).vaults.Nodup ∧
      (Finset.univ.filter fun a => (run exec newRegistry toggles).routerEligible a = true).card = 1 := by
  obtain ⟨hnodup, -, -, hcount, -⟩ := registry_consistent deploy_newRegistry toggles
  refine ⟨by decide, hnodup, ?_⟩
  rw [← hcount]
  decide

end Registry

end RobotMoney.Portfolio
