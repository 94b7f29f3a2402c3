import RobotMoney.Portfolio.Link

/-!
# What the default vector spans

`setDefaultWeights` compares the length of the vector with the number of eligible vaults, and asks of every
entry that it be eligible.  By the pigeonhole this is a permutation of the eligible vaults where no vault has
two entries, and nothing asks for that (`setDefaultWeights_spans_iff`).
-/

namespace RobotMoney.Portfolio

open RobotMoney.Lib

variable {V : Type}

namespace RouterState

variable {env : RouterEnv V} {p p' : RouterState V} {sender : Address} {vaults : List Address} {bps : List ℕ}
  {events : List RouterEvent}

theorem nodup_eligibleList (hlisted : p.registry.Listed) : p.eligibleList.Nodup :=
  hlisted.nodup.filter fun a => p.registry.routerEligible a

/-- A vector that is taken spans the eligible vaults, unless it leaves one out for another one twice. -/
theorem Accepted.perm_iff (h : Accepted env p vaults bps) (hlisted : p.registry.Listed) :
    vaults.Perm p.eligibleList ↔ vaults.Nodup := by
  constructor
  · intro hperm
    exact hperm.nodup_iff.mpr (nodup_eligibleList hlisted)
  · intro hnodup
    have hsub : vaults ⊆ p.eligibleList := fun v hv =>
      (mem_eligibleList hlisted).mpr (h.admissible v hv).eligible
    have hlen : p.eligibleList.length ≤ vaults.length := by
      rw [length_eligibleList hlisted, h.length]
    exact (List.subperm_of_subset hnodup hsub).perm_of_length_le hlen

/-- **What the default vector spans.**  In every state of the registry that calls reach, whatever the router
and the vaults, a vector that `setDefaultWeights` takes is a permutation of the eligible vaults if and only if
it has no vault twice. -/
theorem setDefaultWeights_spans_iff {registryAdmin : Address} {g₀ : Registry}
    (hg : Registry.deploy registryAdmin = .ok g₀)
    (calls : List (Tx Registry.RegistryCall × (Address → Option ℕ)))
    (hp : p.registry = run Registry.exec g₀ calls)
    (h : p.setDefaultWeights env sender vaults bps = .ok (p', events)) :
    (p.eligibleList.Nodup ∧ ∀ v, v ∈ p.eligibleList ↔ p.registry.routerEligible v = true) ∧
      (vaults.Perm p.eligibleList ↔ vaults.Nodup) := by
  have hlisted : p.registry.Listed := hp ▸ Registry.run_listed (Registry.deploy_listed hg) calls
  obtain ⟨-, hacc, -⟩ := setDefaultWeights_iff.mp h
  exact ⟨⟨nodup_eligibleList hlisted, fun v => mem_eligibleList hlisted⟩, hacc.perm_iff hlisted⟩

/-- The calls of the registry that make the vaults `10` and `11` eligible. -/
def listingTwo : List (Tx Registry.RegistryCall × (Address → Option ℕ)) :=
  [(.of 3 (.of 1 1) (.registerVault 10 "stable" 2), fun _ => none),
    (.of 3 (.of 1 1) (.registerVault 11 "yield" 2), fun _ => none),
    (.of 3 (.of 2 2) (.setRouterEligible 10 true), fun _ => none),
    (.of 3 (.of 2 2) (.setRouterEligible 11 true), fun _ => none)]

/-- A new router beside a registry with these two. -/
def beforeVector : RouterState (Address → Address → ℕ) :=
  { freshRouter with registry := run Registry.exec Registry.newRegistry listingTwo }

/-- The vector of both vaults, in either order, spans them. -/
theorem setDefaultWeights_spans_both : [11, 10].Perm beforeVector.eligibleList := by
  obtain ⟨⟨p', events⟩, hset⟩ := succeeds_iff.mp
    (show succeeds (beforeVector.setDefaultWeights (mockVaults 1 2) 3 [11, 10] [4000, 6000]) = true by decide)
  exact (setDefaultWeights_spans_iff Registry.deploy_newRegistry listingTwo rfl hset).2.mpr (by decide)

/-- A vector with the vault `10` twice is taken, and the vault `11` gets nothing. -/
theorem setDefaultWeights_skips :
    succeeds (beforeVector.setDefaultWeights (mockVaults 1 2) 3 [10, 10] [5000, 5000]) = true ∧
      beforeVector.registry.routerEligible 11 = true ∧ ¬ [10, 10].Perm beforeVector.eligibleList := by
  refine ⟨by decide, by decide, ?_⟩
  intro hperm
  exact absurd (hperm.mem_iff.mpr (by decide : (11 : Address) ∈ beforeVector.eligibleList)) (by decide)

end RouterState

end RobotMoney.Portfolio
