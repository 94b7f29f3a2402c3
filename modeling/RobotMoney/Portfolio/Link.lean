import RobotMoney.Portfolio.Conservation
import RobotMoney.Portfolio.Listing

/-!
# The registry and its router

The registry and the router each guard one half of an agreement: while the router is linked and has a
default vector, that vector has one entry for each eligible vault.  `setDefaultWeights` wants the length
to be the number of eligible vaults, `setRouterEligible` wants the new number to be the length.

* The agreement is kept by all calls but one: `setRouter` links a router without a look at its vector, so
  a router that was replaced by another one, or never linked, comes in with a vector that is out of date
  (`synced_iff`).
* While it holds, both guards together leave no way to change it: no sequence of the two calls changes
  the eligibility of any vault (`eligibility_changes_iff`).
-/

namespace RobotMoney.Portfolio

open RobotMoney.Lib

variable {V : Type}

namespace RouterState

/-! ### The two contracts together -/

/-- A call of the registry, with what other accounts answer as routers; a call of the router; or
something that happens to the vaults and to USDC. -/
inductive JointCall (V : Type) where
  | registry (call : Registry.RegistryCall) (others : Address → Option ℕ)
  | router (call : RouterCall)
  | elsewhere (world : World V)

/-- What accounts answer to `defaultWeightsLength()`: the router the length of its default vector. -/
def answers (env : RouterEnv V) (p : RouterState V) (others : Address → Option ℕ) : Address → Option ℕ :=
  Function.update others env.self (some (defaultWeightsLength p.router))

/-- One call of either contract. -/
def jointExec (env : RouterEnv V) (p : RouterState V) (tx : Tx (JointCall V)) :
    Call Unit (RouterState V × Unit) :=
  match tx.call with
  | .registry call others => do
    let (registry, _) ← inner (p.registry.exec (⟨tx.block, tx.sender, call, tx.sender_ne⟩,
      p.answers env others))
    pure ({ p with registry }, ())
  | .router call => do
    let (p, _) ← inner (p.exec env tx.sender call)
    pure (p, ())
  | .elsewhere world => .ok ({ p with world }, ())

/-- The vector has one entry for each eligible vault, and no other. -/
structure Synced (p : RouterState V) : Prop where
  length : p.router.defaultWeightVaultList.length = p.registry.routerEligibleCount
  eligible : ∀ v ∈ p.router.defaultWeightVaultList, p.registry.routerEligible v = true

/-- The router is linked, and has a default vector. -/
structure Linked (env : RouterEnv V) (p : RouterState V) : Prop where
  router : p.registry.router = env.self
  default : p.router.defaultWeightVaultList ≠ []

/-- The call links the router while its vector is out of date. -/
def LinksStale (env : RouterEnv V) (p : RouterState V) (tx : Tx (JointCall V)) : Prop :=
  (∃ others, tx.call = .registry (.setRouter env.self) others) ∧
    p.registry.roles .adminRole tx.sender = true ∧
    p.router.defaultWeightVaultList ≠ [] ∧ ¬ Synced p

variable {env : RouterEnv V} {p p' p₀ : RouterState V} {tx : Tx (JointCall V)} {u : Unit}
  {events : List RouterEvent} {sender v : Address}

/-! ### What the calls do -/

/-- The vault is there, and its asset is USDC. -/
def Compatible (env : RouterEnv V) (p : RouterState V) (vault : Address) : Prop :=
  env.hasCode p.world.ext vault = true ∧ env.asset p.world.ext vault = some env.usdc

theorem requireRouterEligible_eq_ok : p.requireRouterEligible env v = .ok u ↔
    Compatible env p v ∧ p.registry.routerEligible v = true := by
  unfold requireRouterEligible Compatible Registry.isRouterEligible
  cases hasset : env.asset p.world.ext v with
  | none => simp [bind_eq_ok]
  | some a => simp [bind_eq_ok, revertIf_eq_ok, and_assoc]

theorem getVault_eq_ok {g : Registry} {x : VaultMetadata × VaultStatus} :
    g.getVault v = .ok x ↔ g.registered v = true ∧ x = (g.metadata v, g.status v) := by
  unfold Registry.getVault
  rw [bind_eq_ok]
  constructor
  · rintro ⟨_, hreg, hx⟩
    exact ⟨Bool.eq_true_of_not_eq_false (revertIf_eq_ok.mp hreg), (pure_eq_ok.mp hx).symm⟩
  · rintro ⟨hreg, rfl⟩
    refine ⟨(), revertIf_eq_ok.mpr ?_, rfl⟩
    rw [hreg]
    exact Bool.noConfusion

/-- What the loop of the setters wants of a vault. -/
structure Admissible (env : RouterEnv V) (p : RouterState V) (v : Address) : Prop where
  ne_zero : v ≠ 0
  registered : p.registry.registered v = true
  compatible : Compatible env p v
  eligible : p.registry.routerEligible v = true

/-- The loop of the setters passes where every vault is admissible and the weights fit a word. -/
theorem sumWeights_iff : ∀ {vs : List Address} {ws : List ℕ} {total c : ℕ}, vs.length = ws.length →
    total < wordSize →
    (p.sumWeights env vs ws total = .ok c ↔
      (∀ v ∈ vs, Admissible env p v) ∧ total + ws.sum < wordSize ∧ c = total + ws.sum)
  | [], [], total, c, _, htotal => by
    simp [sumWeights, htotal, eq_comm]
  | v :: vs, w :: ws, total, c, hlen, htotal => by
    have hlen : vs.length = ws.length := by simpa using hlen
    unfold sumWeights
    rw [List.forall_mem_cons, List.sum_cons]
    constructor
    · intro h
      obtain ⟨_, hv, h⟩ := bind_eq_ok.mp h
      obtain ⟨_, hreg, h⟩ := bind_eq_ok.mp h
      obtain ⟨_, hel, h⟩ := bind_eq_ok.mp h
      obtain ⟨t, hadd, h⟩ := bind_eq_ok.mp h
      obtain ⟨hreg, -⟩ := getVault_eq_ok.mp (inner_eq_ok.mp hreg)
      obtain ⟨hcompatible, hel⟩ := requireRouterEligible_eq_ok.mp hel
      obtain ⟨ht, rfl⟩ := addU_eq_ok.mp hadd
      obtain ⟨hvs, hsum, hc⟩ := (sumWeights_iff hlen ht).mp h
      exact ⟨⟨⟨revertIf_eq_ok.mp hv, hreg, hcompatible, hel⟩, hvs⟩, by omega, by omega⟩
    · rintro ⟨⟨hv, hvs⟩, hsum, hc⟩
      refine bind_eq_ok.mpr ⟨(), revertIf_eq_ok.mpr hv.ne_zero, ?_⟩
      refine bind_eq_ok.mpr ⟨_, inner_eq_ok.mpr (getVault_eq_ok.mpr ⟨hv.registered, rfl⟩), ?_⟩
      refine bind_eq_ok.mpr ⟨(), requireRouterEligible_eq_ok.mpr ⟨hv.compatible, hv.eligible⟩, ?_⟩
      refine bind_eq_ok.mpr ⟨total + w, addU_eq_ok.mpr ⟨by omega, rfl⟩, ?_⟩
      exact (sumWeights_iff hlen (by omega)).mpr ⟨hvs, by omega, by omega⟩

/-- What a vector has to be for `setDefaultWeights` to take it. -/
structure Accepted (env : RouterEnv V) (p : RouterState V) (vaults : List Address) (bps : List ℕ) :
    Prop where
  complete : Complete vaults bps
  length : vaults.length = p.registry.routerEligibleCount
  admissible : ∀ v ∈ vaults, Admissible env p v

theorem setDefaultWeights_iff {vaults : List Address} {bps : List ℕ} :
    p.setDefaultWeights env sender vaults bps = .ok (p', events) ↔
      p.router.roles .adminRole sender = true ∧ Accepted env p vaults bps ∧
        p' = { p with router := { p.router with
          defaultWeightVaultList := vaults, defaultWeightBps := bps } } ∧
        events = [.defaultWeightsSet vaults bps] := by
  unfold setDefaultWeights
  simp only [bind_eq_ok, Roles.check_eq_ok, revertIf_eq_ok, exists_const, pure_eq_ok, Prod.mk.injEq,
    not_not]
  have hpos : 0 < wordSize := by decide
  have hdenom : bpsDenominator < wordSize := by decide
  constructor
  · rintro ⟨hadmin, hlen, hcount, total, hsum, htotal, rfl, rfl⟩
    obtain ⟨hvs, -, rfl⟩ := (sumWeights_iff hlen hpos).mp hsum
    have hcomplete : Complete vaults bps := ⟨hlen, by omega⟩
    exact ⟨hadmin, ⟨hcomplete, hcount, hvs⟩, rfl, rfl⟩
  · rintro ⟨hadmin, h, rfl, rfl⟩
    obtain ⟨hlen, hsum⟩ := h.complete
    refine ⟨hadmin, hlen, h.length, bpsDenominator, ?_, rfl, rfl, rfl⟩
    exact (sumWeights_iff hlen hpos).mpr ⟨h.admissible, by omega, by omega⟩

/-- The legs change neither contract. -/
theorem executeLegs_kept {receiver : Address} : ∀ {ls : List Leg} {p p' : RouterState V}
    {minShares : List ℕ} {events : List RouterEvent},
    executeLegs env receiver p ls minShares = .ok (p', events) →
      p'.router = p.router ∧ p'.registry = p.registry
  | [], p, p', minShares, events, h => by
    cases h
    exact ⟨rfl, rfl⟩
  | l :: ls, p, p', minShares, events, h => by
    obtain ⟨p₁, event, rest, h₁, h₂⟩ := executeLegs_cons h
    obtain ⟨hrouter, hregistry⟩ := executeLegs_kept h₂
    obtain ⟨usdc, w', shares, -, -, rfl⟩ := executeLeg_ok h₁
    exact ⟨hrouter, hregistry⟩

/-- What a call of the router does to the default vector and the registry. -/
theorem exec_default {c : RouterCall} (h : p.exec env sender c = .ok (p', events)) :
    p'.registry = p.registry ∧
      (p'.router.defaultWeightVaultList = p.router.defaultWeightVaultList ∨
        ∃ vaults bps, Accepted env p vaults bps ∧ p'.router.defaultWeightVaultList = vaults) := by
  cases c with
  | setWeights vaults bps =>
    obtain ⟨-, rfl⟩ := setWeights_ok h
    exact ⟨rfl, .inl rfl⟩
  | setDefaultWeights vaults bps =>
    obtain ⟨-, hacc, rfl, -⟩ := setDefaultWeights_iff.mp h
    exact ⟨rfl, .inr ⟨vaults, bps, hacc, rfl⟩⟩
  | clearVotedWeights =>
    simp only [exec, clearVotedWeights, bind_eq_ok, pure_eq_ok, Prod.mk.injEq] at h
    obtain ⟨-, -, rfl, -⟩ := h
    exact ⟨rfl, .inl rfl⟩
  | setRouterCap cap =>
    simp only [exec, setRouterCap, bind_eq_ok, pure_eq_ok, Prod.mk.injEq] at h
    obtain ⟨-, -, rfl, -⟩ := h
    exact ⟨rfl, .inl rfl⟩
  | setVaultCap vault cap =>
    simp only [exec, setVaultCap, bind_eq_ok, pure_eq_ok, Prod.mk.injEq] at h
    obtain ⟨-, -, -, -, rfl, -⟩ := h
    exact ⟨rfl, .inl rfl⟩
  | rescueUsdc dst =>
    simp only [exec, rescueUsdc, bind_eq_ok] at h
    obtain ⟨-, -, -, -, h⟩ := h
    split at h
    · cases h
      exact ⟨rfl, .inl rfl⟩
    · obtain ⟨usdc, -, h⟩ := bind_eq_ok.mp h
      cases h
      exact ⟨rfl, .inl rfl⟩
  | deposit amount minShares =>
    obtain ⟨usdc, amounts, -, hlegs⟩ := depositTo_legs h
    obtain ⟨hrouter, hregistry⟩ := executeLegs_kept hlegs
    exact ⟨hregistry, .inl (congrArg Router.defaultWeightVaultList hrouter)⟩
  | depositFor receiver amount minShares =>
    obtain ⟨-, -, h⟩ := bind_eq_ok.mp h
    obtain ⟨usdc, amounts, -, hlegs⟩ := depositTo_legs h
    obtain ⟨hrouter, hregistry⟩ := executeLegs_kept hlegs
    exact ⟨hregistry, .inl (congrArg Router.defaultWeightVaultList hrouter)⟩
  | grantRole role account =>
    obtain ⟨roles, -, h⟩ := bind_eq_ok.mp h
    cases h
    exact ⟨rfl, .inl rfl⟩
  | revokeRole role account =>
    obtain ⟨roles, -, h⟩ := bind_eq_ok.mp h
    cases h
    exact ⟨rfl, .inl rfl⟩
  | renounceRole role confirmation =>
    obtain ⟨roles, -, h⟩ := bind_eq_ok.mp h
    cases h
    exact ⟨rfl, .inl rfl⟩

/-- What a call of either contract does. -/
inductive JointEffect (env : RouterEnv V) (p : RouterState V) (tx : Tx (JointCall V)) :
    RouterState V → Prop
  | registry {call : Registry.RegistryCall} {others : Address → Option ℕ} {g' : Registry}
      (hcall : tx.call = .registry call others)
      (he : Registry.Effect p.registry (⟨tx.block, tx.sender, call, tx.sender_ne⟩, p.answers env others) g') :
      JointEffect env p tx { p with registry := g' }
  | weights {p' : RouterState V} {vaults : List Address} {bps : List ℕ}
      (hregistry : p'.registry = p.registry) (hacc : Accepted env p vaults bps)
      (hdefault : p'.router.defaultWeightVaultList = vaults) : JointEffect env p tx p'
  | other {p' : RouterState V} (hregistry : p'.registry = p.registry)
      (hdefault : p'.router.defaultWeightVaultList = p.router.defaultWeightVaultList) :
      JointEffect env p tx p'

theorem jointExec_effect (h : jointExec env p tx = .ok (p', u)) : JointEffect env p tx p' := by
  unfold jointExec at h
  split at h
  case h_1 call others hcall =>
    obtain ⟨⟨g', events⟩, hok, h⟩ := bind_eq_ok.mp h
    cases h
    exact .registry hcall (Registry.exec_effect (inner_eq_ok.mp hok))
  case h_2 call hcall =>
    obtain ⟨⟨p₁, events⟩, hok, h⟩ := bind_eq_ok.mp h
    cases h
    obtain ⟨hregistry, hkept | ⟨vaults, bps, hacc, hdefault⟩⟩ := exec_default (inner_eq_ok.mp hok)
    · exact .other hregistry hkept
    · exact .weights hregistry hacc hdefault
  case h_3 world hcall =>
    cases h
    exact .other rfl rfl

/-! ### The agreement is kept -/

/-- The length the registry sees when the router is linked. -/
theorem linkedLength_of_router (hself : env.self ≠ 0) (hrouter : p.registry.router = env.self)
    (others : Address → Option ℕ) :
    p.registry.linkedLength (p.answers env others) = .ok p.router.defaultWeightVaultList.length := by
  unfold Registry.linkedLength answers
  rw [hrouter, if_neg hself, Function.update_self]
  rfl

/-- While the length is the count, no eligibility changes. -/
theorem change_blocked (hself : env.self ≠ 0) (hlinked : Linked env p)
    (hlen : p.router.defaultWeightVaultList.length = p.registry.routerEligibleCount)
    {others : Address → Option ℕ} {eligible : Bool} {n l : ℕ} (hn : p.registry.newCount eligible = .ok n)
    (hl : p.registry.linkedLength (p.answers env others) = .ok l) : ¬ (l = 0 ∨ l = n) := by
  rw [linkedLength_of_router hself hlinked.router] at hl
  cases hl
  have hpos := List.length_pos_iff.mpr hlinked.default
  rw [Registry.newCount_eq_ok] at hn
  cases eligible with
  | true =>
    obtain ⟨-, rfl⟩ := hn
    omega
  | false =>
    obtain ⟨hone, rfl⟩ := hn
    omega

/-- The agreement, where the router is linked and has a vector. -/
def InSync (env : RouterEnv V) (p : RouterState V) : Prop := Linked env p → Synced p

theorem InSync.step (hself : env.self ≠ 0) (h : InSync env p) (he : JointEffect env p tx p')
    (hstale : ¬ LinksStale env p tx) : InSync env p' := by
  intro hlinked
  cases he with
  | registry hcall he =>
    cases he with
    | register _ _ _ _ =>
      obtain ⟨hlength, heligible⟩ := h ⟨hlinked.router, hlinked.default⟩
      exact ⟨hlength, heligible⟩
    | change _ _ _ _ hn hl hlen =>
      have hlinked : Linked env p := ⟨hlinked.router, hlinked.default⟩
      exact absurd hlen (change_blocked hself hlinked (h hlinked).length hn hl)
    | link hcall' hadmin =>
      obtain ⟨hrouter, hdefault⟩ := hlinked
      subst hrouter
      have hsynced : Synced p := by
        by_contra hnot
        dsimp only at hcall'
        exact hstale ⟨⟨_, hcall' ▸ hcall⟩, hadmin, hdefault, hnot⟩
      exact ⟨hsynced.length, hsynced.eligible⟩
    | other _ _ =>
      obtain ⟨hlength, heligible⟩ := h ⟨hlinked.router, hlinked.default⟩
      exact ⟨hlength, heligible⟩
  | weights hregistry hacc hdefault =>
    refine ⟨?_, ?_⟩
    · rw [hdefault, hregistry]
      exact hacc.length
    · rw [hdefault, hregistry]
      exact fun v hv => (hacc.admissible v hv).eligible
  | other hregistry hdefault =>
    have hsynced : Synced p := h ⟨hregistry ▸ hlinked.router, hdefault ▸ hlinked.default⟩
    refine ⟨?_, ?_⟩
    · rw [hdefault, hregistry]
      exact hsynced.length
    · rw [hdefault, hregistry]
      exact hsynced.eligible

/-- Linking a router with a vector out of date goes through, and the agreement is broken. -/
theorem LinksStale.breaks (hself : env.self ≠ 0) (h : LinksStale env p tx) :
    ¬ InSync env (next (jointExec env) p tx) := by
  obtain ⟨⟨others, hcall⟩, hadmin, hdefault, hstale⟩ := h
  have hset : p.registry.setRouter (p.answers env others) tx.sender env.self =
      .ok ({ p.registry with router := env.self }, [.routerSet p.registry.router env.self]) := by
    unfold Registry.setRouter Registry.unlinkLength
    rw [Roles.check_eq_ok (u := ()) |>.mpr hadmin, if_neg hself]
    rfl
  have hok : jointExec env p tx = .ok ({ p with registry := { p.registry with router := env.self } }, ()) := by
    unfold jointExec
    rw [hcall]
    dsimp only
    unfold Registry.exec
    dsimp only
    rw [hset]
    rfl
  rw [next_of_ok hok]
  intro hsync
  obtain ⟨hlength, heligible⟩ := hsync ⟨rfl, hdefault⟩
  exact hstale ⟨hlength, heligible⟩

/-- A new router has no vector. -/
theorem deploy_inSync {registryAddress admin : Address} {registry : Registry} {world : World V}
    (h : deploy env registryAddress admin registry world = .ok p₀) : InSync env p₀ := by
  simp only [deploy, bind_eq_ok, pure_eq_ok] at h
  obtain ⟨-, -, rfl⟩ := h
  intro hlinked
  exact absurd rfl hlinked.default

/-- **The default vector and the count.**  From the construction of a router on, the agreement holds
after every call of a run if and only if no call of the run links the router while its vector is out of
date. -/
theorem synced_iff (hself : env.self ≠ 0) {registryAddress admin : Address} {registry : Registry}
    {world : World V} (h : deploy env registryAddress admin registry world = .ok p₀)
    (txs : List (Tx (JointCall V))) :
    (∀ pre post, txs = pre ++ post → Linked env (run (jointExec env) p₀ pre) →
        Synced (run (jointExec env) p₀ pre)) ↔
      ∀ pre tx post, txs = pre ++ tx :: post → ¬ LinksStale env (run (jointExec env) p₀ pre) tx := by
  constructor
  · intro hsync pre tx post hsplit hstale
    refine hstale.breaks hself ?_
    have hnext : run (jointExec env) p₀ (pre ++ [tx]) =
        next (jointExec env) (run (jointExec env) p₀ pre) tx := run_append
    rw [← hnext]
    exact hsync (pre ++ [tx]) post (by simpa using hsplit)
  · intro hfresh pre post hsplit
    refine run_invariant (P := fun p _ => InSync env p) (deploy_inSync h) ?_
    intro pre₁ tx post₁ p' r hpre hsync hok
    refine hsync.step hself (jointExec_effect hok) (hfresh pre₁ tx (post₁ ++ post) ?_)
    rw [hsplit, hpre, List.append_assoc, List.cons_append]

/-- A call of the registry by its admin `3`; another router, at `7`, has no default vector. -/
def adminCall (call : Registry.RegistryCall) : Tx (JointCall (Address → Address → ℕ)) :=
  .of 3 (.of 1 1) (.registry call fun a => if a = 7 then some 0 else none)

/-- Two vaults are registered and eligible, the router is linked, and its default vector is set. -/
def linking : List (Tx (JointCall (Address → Address → ℕ))) :=
  [adminCall (.registerVault 10 "stable" 2), adminCall (.registerVault 11 "yield" 2),
    adminCall (.setRouterEligible 10 true), adminCall (.setRouterEligible 11 true),
    adminCall (.setRouter 1), .of 3 (.of 2 2) (.router (.setDefaultWeights [10, 11] [3333, 6667]))]

/-- The router is replaced by another one, the vault `11` is no longer eligible, and the router is linked
again. -/
def replacing : List (Tx (JointCall (Address → Address → ℕ))) :=
  [adminCall (.setRouter 7), adminCall (.setRouterEligible 11 false), adminCall (.setRouter 1)]

/-- The router `1` after its constructor. -/
def newRouter : RouterState (Address → Address → ℕ) :=
  { freshRouter with registry := Registry.newRegistry }

theorem deploy_newRouter : deploy (mockVaults 1 2) 5 3 Registry.newRegistry fundedWorld = .ok newRouter :=
  rfl

/-- The router is linked before it has a vector. -/
theorem linking_fresh : ∀ pre tx post, linking = pre ++ tx :: post →
    ¬ LinksStale (mockVaults 1 2) (run (jointExec (mockVaults 1 2)) newRouter pre) tx := by
  have hother : ∀ {p : RouterState (Address → Address → ℕ)} {tx},
      (∀ others, tx.call ≠ .registry (.setRouter 1) others) → ¬ LinksStale (mockVaults 1 2) p tx := by
    rintro p tx hne ⟨⟨others, hcall⟩, -⟩
    exact hne others hcall
  refine forall_step_cons (hother ?_) (forall_step_cons (hother ?_) (forall_step_cons (hother ?_)
    (forall_step_cons (hother ?_) (forall_step_cons ?_ (forall_step_cons (hother ?_) forall_step_nil)))))
  rotate_left 4
  · rintro ⟨-, -, hdefault, -⟩
    exact hdefault (by decide)
  all_goals
    intro others hcall
    cases hcall

theorem synced_iff_linking :
    Linked (mockVaults 1 2) (run (jointExec (mockVaults 1 2)) newRouter linking) ∧
      Synced (run (jointExec (mockVaults 1 2)) newRouter linking) := by
  have hlinked : Linked (mockVaults 1 2) (run (jointExec (mockVaults 1 2)) newRouter linking) :=
    ⟨by decide, by decide⟩
  have hsynced := (synced_iff (by decide) deploy_newRouter linking).mpr linking_fresh linking []
    (List.append_nil linking).symm
  exact ⟨hlinked, hsynced hlinked⟩

/-- After the detour over another router, the vector is longer than the count. -/
theorem replaced_router_stale :
    Linked (mockVaults 1 2) (run (jointExec (mockVaults 1 2)) newRouter (linking ++ replacing)) ∧
      (run (jointExec (mockVaults 1 2)) newRouter (linking ++ replacing)).router.defaultWeightVaultList.length
        = 2 ∧
      (run (jointExec (mockVaults 1 2)) newRouter (linking ++ replacing)).registry.routerEligibleCount = 1 ∧
      ¬ Synced (run (jointExec (mockVaults 1 2)) newRouter (linking ++ replacing)) := by
  have hlength : (run (jointExec (mockVaults 1 2)) newRouter
      (linking ++ replacing)).router.defaultWeightVaultList.length = 2 := by decide
  have hcount : (run (jointExec (mockVaults 1 2)) newRouter
      (linking ++ replacing)).registry.routerEligibleCount = 1 := by decide
  refine ⟨⟨by decide, by decide⟩, hlength, hcount, ?_⟩
  intro hsync
  have := hsync.length
  omega

/-! ### A change of eligibility -/

/-- Which vaults are eligible once the vault `v` has changed. -/
def eligibleAfter (p : RouterState V) (v : Address) : Address → Bool :=
  Function.update p.registry.routerEligible v (!p.registry.routerEligible v)

/-- How many. -/
def countAfter (p : RouterState V) (v : Address) : ℕ :=
  if p.registry.routerEligible v then p.registry.routerEligibleCount - 1
  else p.registry.routerEligibleCount + 1

/-- Every eligible vault has an entry in the default vector. -/
def Covers (p : RouterState V) : Prop :=
  ∀ a, p.registry.routerEligible a = true → a ∈ p.router.defaultWeightVaultList

/-- A call of `setRouterEligible` or of `setDefaultWeights`. -/
def Adjusts (tx : Tx (JointCall V)) : Prop :=
  (∃ vault eligible others, tx.call = .registry (.setRouterEligible vault eligible) others) ∨
    ∃ vaults bps, tx.call = .router (.setDefaultWeights vaults bps)

/-- Some sequence of the two calls turns the eligibility of the vault round, and leaves a vector that
covers the eligible vaults. -/
def CanChange (env : RouterEnv V) (p : RouterState V) (v : Address) : Prop :=
  ∃ txs : List (Tx (JointCall V)), (∀ tx ∈ txs, Adjusts tx) ∧
    (run (jointExec env) p txs).registry.routerEligible v = !p.registry.routerEligible v ∧
    Covers (run (jointExec env) p txs)

/-- An account that can make calls holds the admin role. -/
def Administered (roles : Roles AdminRole Address) : Prop :=
  ∃ a, a ≠ 0 ∧ roles .adminRole a = true

/-- The vector already has the length it has to have afterwards, and it covers the vaults as it is, or
can be set to one that does. -/
structure Changeable (env : RouterEnv V) (p : RouterState V) (v : Address) : Prop where
  admin : Administered p.registry.roles
  length : p.router.defaultWeightVaultList.length = p.countAfter v
  vector : (∀ a, p.eligibleAfter v a = true → a ∈ p.router.defaultWeightVaultList) ∨
    Administered p.router.roles ∧ ∀ a, p.eligibleAfter v a = true → Compatible env p a

/-- The registry with the eligibility of `v` changed. -/
def changed (p : RouterState V) (v : Address) : RouterState V :=
  { p with registry := { p.registry with routerEligibleCount := p.countAfter v
                                         routerEligible := p.eligibleAfter v } }

/-- What the two calls do to a linked router with a vector. -/
inductive Adjustment (env : RouterEnv V) (p : RouterState V) : RouterState V → Prop
  | none : Adjustment env p p
  | change {vault : Address} (hadmin : Administered p.registry.roles)
      (hlen : p.router.defaultWeightVaultList.length = p.countAfter vault) :
      Adjustment env p (p.changed vault)
  | weights {vaults : List Address} {bps : List ℕ} (hadmin : Administered p.router.roles)
      (hacc : Accepted env p vaults bps) :
      Adjustment env p { p with router := { p.router with
        defaultWeightVaultList := vaults, defaultWeightBps := bps } }

theorem newCount_countAfter {n : ℕ} {eligible : Bool} (hne : p.registry.routerEligible v ≠ eligible)
    (hn : p.registry.newCount eligible = .ok n) :
    n = p.countAfter v ∧ eligible = !p.registry.routerEligible v := by
  have heligible : eligible = !p.registry.routerEligible v := Bool.eq_not.mpr hne.symm
  subst heligible
  refine ⟨?_, rfl⟩
  rw [Registry.newCount_eq_ok] at hn
  unfold countAfter
  cases h : p.registry.routerEligible v with
  | true =>
    rw [h] at hn
    exact hn.2
  | false =>
    rw [h] at hn
    exact hn.2

theorem adjusts_ok (hself : env.self ≠ 0) (hlinked : Linked env p) (ha : Adjusts tx)
    (h : jointExec env p tx = .ok (p', u)) : Adjustment env p p' := by
  unfold jointExec at h
  obtain ⟨vault, eligible, others, hcall⟩ | ⟨vaults, bps, hcall⟩ := ha
  · rw [hcall] at h
    obtain ⟨⟨g', events⟩, hok, h⟩ := bind_eq_ok.mp h
    cases h
    obtain ⟨hadmin, -, -, ⟨-, rfl⟩ | ⟨hne, n, l, hn, hl, hlen, rfl⟩⟩ :=
      Registry.setRouterEligible_iff.mp (inner_eq_ok.mp hok)
    · exact .none
    · rw [linkedLength_of_router hself hlinked.router] at hl
      cases hl
      have hpos := List.length_pos_iff.mpr hlinked.default
      obtain ⟨rfl, rfl⟩ := newCount_countAfter hne hn
      exact .change ⟨tx.sender, tx.sender_ne, hadmin⟩ (by omega)
  · rw [hcall] at h
    obtain ⟨⟨p₁, events⟩, hok, h⟩ := bind_eq_ok.mp h
    cases h
    obtain ⟨hadmin, hacc, rfl, -⟩ := setDefaultWeights_iff.mp (inner_eq_ok.mp hok)
    exact .weights ⟨tx.sender, tx.sender_ne, hadmin⟩ hacc

/-- Where the two calls have led: nowhere; to a vector as long as the count, before any change; or to one
change, after which the vector is as long as the new count. -/
inductive Phase (env : RouterEnv V) (p q : RouterState V) : Prop
  | start (hq : q = p)
  | blocked (heligible : q.registry.routerEligible = p.registry.routerEligible)
      (hlen : q.router.defaultWeightVaultList.length = q.registry.routerEligibleCount)
  | change {vault : Address} (hadmin : Administered p.registry.roles)
      (hafter : p.router.defaultWeightVaultList.length = p.countAfter vault)
      (heligible : q.registry.routerEligible = p.eligibleAfter vault)
      (hlen : q.router.defaultWeightVaultList.length = q.registry.routerEligibleCount)
      (hvector : q.router.defaultWeightVaultList = p.router.defaultWeightVaultList ∨
        Administered p.router.roles ∧ ∀ a ∈ q.router.defaultWeightVaultList, Compatible env p a)

/-- What the two calls leave alone. -/
structure Kept (env : RouterEnv V) (p q : RouterState V) : Prop where
  linked : Linked env q
  roles : q.router.roles = p.router.roles
  world : q.world = p.world

/-- A vector as long as the count is not as long as it would be after a change. -/
theorem length_ne_countAfter (hlinked : Linked env p)
    (hlen : p.router.defaultWeightVaultList.length = p.registry.routerEligibleCount) (v : Address) :
    p.router.defaultWeightVaultList.length ≠ p.countAfter v := by
  have hpos := List.length_pos_iff.mpr hlinked.default
  unfold countAfter
  split <;> omega

/-- A vector that was accepted has an entry: the weights do not add up to zero. -/
theorem Accepted.ne_nil {vaults : List Address} {bps : List ℕ} (h : Accepted env p vaults bps) :
    vaults ≠ [] := by
  rintro rfl
  obtain ⟨hlen, hsum⟩ := h.complete
  have hbps : bps = [] := List.eq_nil_of_length_eq_zero hlen.symm
  rw [hbps] at hsum
  exact absurd hsum (by decide)

theorem Kept.step {q q' : RouterState V} (hk : Kept env p q) (ha : Adjustment env q q') :
    Kept env p q' := by
  obtain ⟨hlinked, hroles, hworld⟩ := hk
  cases ha with
  | none => exact ⟨hlinked, hroles, hworld⟩
  | change _ _ => exact ⟨⟨hlinked.router, hlinked.default⟩, hroles, hworld⟩
  | weights _ hacc => exact ⟨⟨hlinked.router, hacc.ne_nil⟩, hroles, hworld⟩

theorem Phase.step {q q' : RouterState V} (hk : Kept env p q) (h : Phase env p q)
    (ha : Adjustment env q q') : Phase env p q' := by
  cases ha with
  | none => exact h
  | change hadmin hlen =>
    cases h with
    | start hq =>
      subst hq
      exact .change hadmin hlen rfl hlen (.inl rfl)
    | blocked _ hblocked => exact absurd hlen (length_ne_countAfter hk.linked hblocked _)
    | change _ _ _ hblocked _ => exact absurd hlen (length_ne_countAfter hk.linked hblocked _)
  | weights hadmin hacc =>
    cases h with
    | start hq =>
      subst hq
      exact .blocked rfl hacc.length
    | blocked heligible _ => exact .blocked heligible hacc.length
    | change hregistry hafter heligible _ _ =>
      refine .change hregistry hafter heligible hacc.length (.inr ⟨hk.roles ▸ hadmin, ?_⟩)
      intro a ha
      have hcompatible := (hacc.admissible a ha).compatible
      unfold Compatible at hcompatible ⊢
      rwa [hk.world] at hcompatible

theorem run_phase (hself : env.self ≠ 0) (hlinked : Linked env p) {txs : List (Tx (JointCall V))}
    (hall : ∀ tx ∈ txs, Adjusts tx) :
    Kept env p (run (jointExec env) p txs) ∧ Phase env p (run (jointExec env) p txs) := by
  refine run_invariant (P := fun q _ => Kept env p q ∧ Phase env p q) ?_ ?_
  · exact ⟨⟨hlinked, rfl, rfl⟩, .start rfl⟩
  · rintro pre tx post q' r rfl ⟨hk, hphase⟩ hok
    have ha := adjusts_ok hself hk.linked
      (hall tx (List.mem_append_right pre List.mem_cons_self)) hok
    exact ⟨hk.step ha, hphase.step hk ha⟩

/-- What can be changed is changeable. -/
theorem CanChange.changeable (hself : env.self ≠ 0) (hlinked : Linked env p) (h : CanChange env p v) :
    Changeable env p v := by
  obtain ⟨txs, hall, hnew, hcovers⟩ := h
  obtain ⟨-, hphase⟩ := run_phase hself hlinked hall
  cases hphase with
  | start hq =>
    rw [hq] at hnew
    exact absurd hnew (by simp)
  | blocked heligible _ =>
    rw [heligible] at hnew
    exact absurd hnew (by simp)
  | @change vault hadmin hafter heligible _ hvector =>
    have hvault : v = vault := by
      by_contra hne
      rw [heligible, eligibleAfter, Function.update_of_ne hne] at hnew
      exact absurd hnew (by simp)
    subst hvault
    unfold Covers at hcovers
    rw [heligible] at hcovers
    refine ⟨hadmin, hafter, ?_⟩
    obtain hsame | ⟨hrouter, hcompatible⟩ := hvector
    · rw [hsame] at hcovers
      exact .inl hcovers
    · exact .inr ⟨hrouter, fun a ha => hcompatible a (hcovers a ha)⟩

/-- While the length is the count, no sequence of the two calls changes the eligibility of any vault. -/
theorem not_canChange (hself : env.self ≠ 0) (hlinked : Linked env p)
    (hlen : p.router.defaultWeightVaultList.length = p.registry.routerEligibleCount) (v : Address) :
    ¬ CanChange env p v :=
  fun hcan => length_ne_countAfter hlinked hlen v (hcan.changeable hself hlinked).length

/-- The eligible vaults, in the order of registration. -/
def eligibleList (p : RouterState V) : List Address :=
  p.registry.vaults.filter fun a => p.registry.routerEligible a

theorem mem_eligibleList (hlisted : p.registry.Listed) {a : Address} :
    a ∈ p.eligibleList ↔ p.registry.routerEligible a = true := by
  unfold eligibleList
  rw [List.mem_filter, hlisted.listed]
  exact ⟨fun h => h.2, fun h => ⟨hlisted.eligible a h, h⟩⟩

/-- They are as many as the count says. -/
theorem length_eligibleList (hlisted : p.registry.Listed) :
    p.eligibleList.length = p.registry.routerEligibleCount := by
  have hnodup : p.eligibleList.Nodup := hlisted.nodup.filter fun a => p.registry.routerEligible a
  have hset : p.eligibleList.toFinset = p.registry.eligibleVaults := by
    ext a
    rw [List.mem_toFinset, mem_eligibleList hlisted, Registry.mem_eligibleVaults]
  rw [hlisted.count, ← hset, List.toFinset_card_of_nodup hnodup]

/-- All the weight on the first of `n + 1` vaults. -/
def firstOnly (n : ℕ) : List ℕ := bpsDenominator :: List.replicate n 0

/-- The change itself. -/
def changeTx (p : RouterState V) (v : Address) {admin : Address} (hne : admin ≠ 0) : Tx (JointCall V) :=
  ⟨.of 0 0, admin, .registry (.setRouterEligible v (!p.registry.routerEligible v)) fun _ => none, hne⟩

/-- The default vector set to all eligible vaults. -/
def withAll (p : RouterState V) : RouterState V :=
  { p with router := { p.router with defaultWeightVaultList := p.eligibleList
                                     defaultWeightBps := firstOnly (p.eligibleList.length - 1) } }

def allTx (p : RouterState V) {admin : Address} (hne : admin ≠ 0) : Tx (JointCall V) :=
  ⟨.of 0 0, admin, .router (.setDefaultWeights p.eligibleList (firstOnly (p.eligibleList.length - 1))), hne⟩

theorem jointExec_changeTx (hself : env.self ≠ 0) (hlinked : Linked env p) (hlisted : p.registry.Listed)
    (hv : p.registry.registered v = true)
    (hlen : p.router.defaultWeightVaultList.length = p.countAfter v) {admin : Address} (hne : admin ≠ 0)
    (hadmin : p.registry.roles .adminRole admin = true) :
    jointExec env p (changeTx p v hne) = .ok (p.changed v, ()) := by
  have hchange : p.registry.routerEligible v ≠ !p.registry.routerEligible v := by simp
  obtain ⟨n, hn⟩ := hlisted.newCount_ok hchange
  obtain ⟨rfl, -⟩ := newCount_countAfter hchange hn
  have hset := Registry.setRouterEligible_iff.mpr ⟨hadmin, hv, rfl,
    .inr ⟨hchange, _, _, hn, linkedLength_of_router hself hlinked.router fun _ => none, .inr hlen, rfl⟩⟩
  unfold jointExec changeTx
  dsimp only
  unfold Registry.exec
  dsimp only
  rw [hset]
  rfl

/-- The vector of all eligible vaults is taken, where there is one and all of them are compatible. -/
theorem accepted_eligibleList (hlisted : p.registry.Listed) (hpos : 0 < p.registry.routerEligibleCount)
    (hcompatible : ∀ a, p.registry.routerEligible a = true → Compatible env p a) :
    Accepted env p p.eligibleList (firstOnly (p.eligibleList.length - 1)) := by
  have hlen := length_eligibleList hlisted
  refine ⟨⟨?_, ?_⟩, hlen, ?_⟩
  · rw [firstOnly, List.length_cons, List.length_replicate]
    omega
  · simp [firstOnly]
  · intro a ha
    have heligible := (mem_eligibleList hlisted).mp ha
    have hreg := hlisted.eligible a heligible
    exact ⟨hlisted.ne_zero a hreg, hreg, hcompatible a heligible, heligible⟩

theorem jointExec_allTx (hlisted : p.registry.Listed) (hpos : 0 < p.registry.routerEligibleCount)
    (hcompatible : ∀ a, p.registry.routerEligible a = true → Compatible env p a) {admin : Address}
    (hne : admin ≠ 0) (hadmin : p.router.roles .adminRole admin = true) :
    jointExec env p (allTx p hne) = .ok (p.withAll, ()) := by
  have hacc := accepted_eligibleList hlisted hpos hcompatible
  have hset := setDefaultWeights_iff.mpr ⟨hadmin, hacc, rfl, rfl⟩
  unfold jointExec allTx
  dsimp only
  unfold exec
  dsimp only
  rw [hset]
  rfl

theorem changed_listed (hlisted : p.registry.Listed) (hv : p.registry.registered v = true) :
    (p.changed v).registry.Listed := by
  have hchange : p.registry.routerEligible v ≠ !p.registry.routerEligible v := by simp
  obtain ⟨n, hn⟩ := hlisted.newCount_ok hchange
  obtain ⟨rfl, -⟩ := newCount_countAfter hchange hn
  exact hlisted.change hv hchange hn

/-- What is changeable can be changed: the change first, then a vector of all eligible vaults. -/
theorem Changeable.canChange (hself : env.self ≠ 0) (hlinked : Linked env p)
    (hlisted : p.registry.Listed) (hv : p.registry.registered v = true) (h : Changeable env p v) :
    CanChange env p v := by
  obtain ⟨⟨admin, hne, hadmin⟩, hlen, hvector⟩ := h
  have hchange := jointExec_changeTx hself hlinked hlisted hv hlen hne hadmin
  have hnew : p.eligibleAfter v v = !p.registry.routerEligible v := Function.update_self _ _ _
  obtain hcovers | ⟨⟨rAdmin, hrne, hrAdmin⟩, hcompatible⟩ := hvector
  · have hrun : run (jointExec env) p [changeTx p v hne] = p.changed v := next_of_ok hchange
    refine ⟨[changeTx p v hne], ?_, ?_, ?_⟩
    · intro tx htx
      rw [List.mem_singleton.mp htx]
      exact .inl ⟨_, _, _, rfl⟩
    · rw [hrun]
      exact hnew
    · rw [hrun]
      exact hcovers
  · have hlisted' := changed_listed hlisted hv
    have hpos : 0 < p.countAfter v := hlen ▸ List.length_pos_iff.mpr hlinked.default
    have hall : jointExec env (p.changed v) (allTx (p.changed v) hrne) =
        .ok ((p.changed v).withAll, ()) := jointExec_allTx hlisted' hpos hcompatible hrne hrAdmin
    have hrun : run (jointExec env) p [changeTx p v hne, allTx (p.changed v) hrne] =
        (p.changed v).withAll := by
      rw [run, next_of_ok hchange]
      exact next_of_ok hall
    refine ⟨[changeTx p v hne, allTx (p.changed v) hrne], ?_, ?_, ?_⟩
    · intro tx htx
      rcases List.mem_pair.mp htx with rfl | rfl
      · exact .inl ⟨_, _, _, rfl⟩
      · exact .inr ⟨_, _, rfl⟩
    · rw [hrun]
      exact hnew
    · rw [hrun]
      exact fun a ha => (mem_eligibleList hlisted').mpr ha

theorem run_registry_listed (h : p.registry.Listed) (txs : List (Tx (JointCall V))) :
    (run (jointExec env) p txs).registry.Listed := by
  refine run_invariant (P := fun (p : RouterState V) _ => p.registry.Listed) h ?_
  intro pre tx post p' r _ hlisted hok
  cases jointExec_effect hok with
  | registry _ he => exact hlisted.step he
  | weights hregistry _ _ => exact hregistry ▸ hlisted
  | other hregistry _ => exact hregistry ▸ hlisted

/-- **A change of eligibility.**  In every state that two deployed contracts reach, linked and with a
default vector, the eligibility of a registered vault can be changed by calls of `setRouterEligible` and
`setDefaultWeights` if and only if it is `Changeable`: the vector already has the length that it is to
have after the change. -/
theorem eligibility_changes_iff (hself : env.self ≠ 0) {registryAddress registryAdmin admin : Address}
    {g₀ : Registry} (hg : Registry.deploy registryAdmin = .ok g₀)
    (calls : List (Tx Registry.RegistryCall × (Address → Option ℕ))) {world : World V}
    (h : deploy env registryAddress admin (run Registry.exec g₀ calls) world = .ok p₀)
    (txs : List (Tx (JointCall V))) (hlinked : Linked env (run (jointExec env) p₀ txs))
    (hv : (run (jointExec env) p₀ txs).registry.registered v = true) :
    CanChange env (run (jointExec env) p₀ txs) v ↔ Changeable env (run (jointExec env) p₀ txs) v := by
  have hlisted₀ : p₀.registry.Listed := by
    simp only [deploy, bind_eq_ok, pure_eq_ok] at h
    obtain ⟨-, -, rfl⟩ := h
    exact Registry.run_listed (Registry.deploy_listed hg) calls
  have hlisted : (run (jointExec env) p₀ txs).registry.Listed := run_registry_listed hlisted₀ txs
  exact ⟨fun hcan => hcan.changeable hself hlinked, fun hc => hc.canChange hself hlinked hlisted hv⟩

/-- After the detour over another router, the vault `11` can be made eligible again: the vector is still
the one of two vaults. -/
theorem eligibility_changes_iff_replaced :
    CanChange (mockVaults 1 2) (run (jointExec (mockVaults 1 2)) newRouter (linking ++ replacing)) 11 := by
  refine (eligibility_changes_iff (by decide) Registry.deploy_newRegistry [] deploy_newRouter
    (linking ++ replacing) ⟨by decide, by decide⟩ (by decide)).mpr ⟨⟨3, by decide, by decide⟩, by decide,
      .inl ?_⟩
  intro a ha
  have hlisted₀ : (run (jointExec (mockVaults 1 2)) newRouter (linking ++ replacing)).registry.Listed :=
    run_registry_listed (Registry.deploy_listed Registry.deploy_newRegistry) (linking ++ replacing)
  have hlisted := changed_listed (v := 11) hlisted₀ (by decide)
  have hvaults : ((run (jointExec (mockVaults 1 2)) newRouter
      (linking ++ replacing)).changed 11).registry.vaults = [10, 11] := by decide
  have hvector : (run (jointExec (mockVaults 1 2)) newRouter
      (linking ++ replacing)).router.defaultWeightVaultList = [10, 11] := by decide
  rw [hvector, ← hvaults]
  exact (hlisted.listed a).mpr (hlisted.eligible a ha)

/-- The ordinary case: two eligible vaults, both in the vector, and neither can be made ineligible. -/
theorem linked_router_deadlocked :
    Linked (mockVaults 1 2) (run (jointExec (mockVaults 1 2)) newRouter linking) ∧
      (run (jointExec (mockVaults 1 2)) newRouter linking).registry.registered 11 = true ∧
      ¬ CanChange (mockVaults 1 2) (run (jointExec (mockVaults 1 2)) newRouter linking) 11 := by
  have hlinked : Linked (mockVaults 1 2) (run (jointExec (mockVaults 1 2)) newRouter linking) :=
    ⟨by decide, by decide⟩
  exact ⟨hlinked, by decide, not_canChange (by decide) hlinked (by decide) 11⟩

end RouterState

end RobotMoney.Portfolio
