import RobotMoney.Lib.Latest
import RobotMoney.Vault.SharePrice

/-!
# The throttle of `rebalance`

A rebalance pulls from each adapter at most its excess over the equal target, and from all of them at most the part
of the total that `maxRebalanceBpsPerCall` allows: the loop carries the running total, and stops or cuts off at the
limit.  It succeeds only when the interval has passed since `lastRebalanceAt`, which nothing writes but the two
rebalances: it is the time of the last one that succeeded.
-/

namespace RobotMoney.Vault

open RobotMoney.Lib State

variable {V : Type} {env : Env V} {s s' s₀ : State V} {w w₁ w' : World V} {ads : List Address}
  {tx : Tx (VaultCall V)}

/-! ### What is pulled -/

theorem rebalancePull_bounds {current target limit moved pull : ℕ} (hmoved : moved ≤ limit)
    (h : rebalancePull current target limit moved = .ok pull) : pull ≤ current - target ∧ moved + pull ≤ limit := by
  unfold State.rebalancePull at h
  simp only [bind_eq_ok, addU_eq_ok, pure_eq_ok] at h
  obtain ⟨_, ⟨-, rfl⟩, rfl⟩ := h
  split <;> omega

/-- What the loop does that has moved `m` of at most `limit`, and ends at `m'`: nobody is pulled below the target, and
what the adapters give is idle. -/
structure Trimmed (env : Env V) (ads : List Address) (target limit : ℕ) (w : World V) (m : ℕ) (w' : World V)
    (m' : ℕ) : Prop where
  capped : m' ≤ max m limit
  idle : w'.usdc.balanceOf env.self + m = w.usdc.balanceOf env.self + m'
  falls : ∀ a ∈ ads, env.adapterAssets w' a ≤ env.adapterAssets w a
  floor : ∀ a ∈ ads, min target (env.adapterAssets w a) ≤ env.adapterAssets w' a

section Trimmed

variable {target limit m m₁ m' : ℕ}

theorem Trimmed.refl : Trimmed env ads target limit w m w m :=
  ⟨le_max_left _ _, rfl, fun _ _ => le_rfl, fun _ _ => min_le_right _ _⟩

theorem Trimmed.trans (h₁ : Trimmed env ads target limit w m w₁ m₁) (h₂ : Trimmed env ads target limit w₁ m₁ w' m') :
    Trimmed env ads target limit w m w' m' := by
  have hcap₁ := h₁.capped
  have hcap₂ := h₂.capped
  have hidle₁ := h₁.idle
  have hidle₂ := h₂.idle
  refine ⟨by omega, by omega, ?_, ?_⟩
  · intro a ha
    exact (h₂.falls a ha).trans (h₁.falls a ha)
  · intro a ha
    have hfloor₁ := h₁.floor a ha
    have hfloor₂ := h₂.floor a ha
    omega

/-- One adapter gives part of its excess. -/
theorem Trimmed.pull (hexact : ExactOut env ads) {a : Address} (ha : a ∈ ads) {pull actual : ℕ}
    (hpull : pull ≤ env.adapterAssets w a - target) (hlimit : m + pull ≤ limit)
    (h : env.adapterWithdraw w a pull = .ok (w₁, actual)) : Trimmed env ads target limit w m w₁ (m + actual) := by
  obtain ⟨hactual, hidle, hgave, hkept⟩ := hexact.withdraw w a pull w₁ actual ha h
  refine ⟨by omega, by omega, ?_, ?_⟩
  · intro b hb
    by_cases hba : b = a
    · subst hba
      omega
    · exact (hkept b hb hba).le
  · intro b hb
    by_cases hba : b = a
    · subst hba
      omega
    · rw [hkept b hb hba]
      exact min_le_right _ _

/-- **The loop keeps to the limit.** -/
theorem rebalanceLoop_trimmed (hexact : ExactOut env ads) {is : List AdapterInfo}
    (his : ∀ i ∈ is, i.active = true → i.adapter ∈ ads) {total targetBps : ℕ}
    (h : rebalanceLoop env total targetBps limit w is m = .ok (w', m')) :
    Trimmed env ads (total * targetBps / maxBps) limit w m w' m' := by
  induction is generalizing w m with
  | nil =>
    cases h
    exact .refl
  | cons i is ih =>
    obtain ⟨hi, hrest⟩ := List.forall_mem_cons.mp his
    unfold State.rebalanceLoop at h
    split at h
    · exact ih hrest h
    rename_i hactive
    split at h
    · cases h
      exact .refl
    rename_i hroom
    obtain ⟨product, hproduct, h⟩ := bind_eq_ok.mp h
    obtain ⟨-, rfl⟩ := mulU_eq_ok.mp hproduct
    dsimp only at h
    split at h
    · exact ih hrest h
    obtain ⟨pull, hpull, h⟩ := bind_eq_ok.mp h
    obtain ⟨hexcess, hlimit⟩ := rebalancePull_bounds (Nat.le_of_not_le hroom) hpull
    split at h
    · exact ih hrest h
    · simp only [bind_eq_ok, inner_eq_ok, Prod.exists, addU_eq_ok] at h
      obtain ⟨w₁, actual, hw, moved, ⟨-, rfl⟩, h⟩ := h
      exact (Trimmed.pull hexact (hi (by simpa using hactive)) hexcess hlimit hw).trans (ih hrest h)

end Trimmed

/-! ### A rebalance -/

/-- A rebalance is its checks, its loop and the routing of what is idle. -/
theorem rebalance_eq_ok {b : Block} {sender : Address} (h : s.rebalance env b sender = .ok s') :
    s.lastRebalanceAt + s.minRebalanceInterval.1 ≤ b.timestamp ∧
      ∃ A w moved s₁, s.totalAssets env = .ok A ∧
        rebalanceLoop env A s.targetBpsFor (A * s.maxRebalanceBpsPerCall.1 / maxBps) s.world s.adapters 0 =
          .ok (w, moved) ∧
        ({ s with world := w } : State V).routeIdle env = .ok s₁ ∧ s' = { s₁ with lastRebalanceAt := b.timestamp } := by
  unfold State.rebalance at h
  simp only [bind_eq_ok, addU_eq_ok, mulU_eq_ok, revertIf_eq_ok, Prod.exists, pure_eq_ok] at h
  obtain ⟨_, -, _, ⟨-, rfl⟩, _, hlate, _, -, A, hA, _, ⟨-, rfl⟩, w, moved, hloop, s₁, hroute, rfl⟩ := h
  exact ⟨Nat.le_of_not_lt hlate, A, w, moved, s₁, hA, hloop, hroute, rfl⟩

/-- What a rebalance pulls: with the total `A`, the loop ends in `w` and has pulled `moved`. -/
structure Throttled (env : Env V) (ads : List Address) (s : State V) (A : ℕ) (w : World V) (moved : ℕ) : Prop where
  /-- the pulls sum to what was moved -/
  pulled : (s.activeAdapters.map (env.adapterAssets w)).sum + moved = (s.adapterBalances env).sum
  capped : moved ≤ A * s.maxRebalanceBpsPerCall.1 / 10000
  half : 2 * moved ≤ A
  falls : ∀ a ∈ ads, env.adapterAssets w a ≤ env.adapterAssets s.world a
  floor : ∀ a ∈ ads, env.adapterAssets w a = env.adapterAssets s.world a ∨
    A * s.targetBpsFor / 10000 ≤ env.adapterAssets w a

theorem throttled_of_loop (hexact : Exact env ads) (hads : ∀ a ∈ s.activeAdapters, a ∈ ads)
    (hnodup : s.activeAdapters.Nodup) {A moved : ℕ}
    (h : rebalanceLoop env A s.targetBpsFor (A * s.maxRebalanceBpsPerCall.1 / maxBps) s.world s.adapters 0 =
      .ok (w, moved)) : Throttled env ads s A w moved := by
  have his : ∀ i ∈ s.adapters, i.active = true → i.adapter ∈ s.activeAdapters := fun _ => mem_activeAdapters
  have hwealth := (rebalanceLoop_moves his h).wealth (hexact.mono hads) hnodup
  have htrim := rebalanceLoop_trimmed hexact.toExactOut (fun i hi hactive => hads _ (his i hi hactive)) h
  have hidle := htrim.idle
  have hcap : moved ≤ A * s.maxRebalanceBpsPerCall.1 / maxBps := htrim.capped.trans (by simp)
  refine ⟨?_, hcap, ?_, htrim.falls, ?_⟩
  · unfold wealth at hwealth
    change _ = (s.activeAdapters.map (env.adapterAssets s.world)).sum
    omega
  · have hbps : A * s.maxRebalanceBpsPerCall.1 ≤ A * maxRebalanceBpsCeiling :=
      Nat.mul_le_mul_left A s.maxRebalanceBpsPerCall.2.2
    unfold maxRebalanceBpsCeiling at hbps
    unfold maxBps at hcap
    omega
  · intro a ha
    have hfalls := htrim.falls a ha
    have hfloor := htrim.floor a ha
    unfold maxBps at hfloor
    omega

/-! ### The time of the last one -/

/-- Whether the call is one of the two rebalances. -/
def State.VaultCall.rebalances : VaultCall V → Bool
  | .rebalance => true
  | .adminRebalance _ => true
  | _ => false

/-- Nothing else writes the time of the last rebalance. -/
theorem exec_lastRebalanceAt {r : ℕ × ℕ} (h : s.exec env tx = .ok (s', r)) :
    s'.lastRebalanceAt = if tx.call.rebalances then tx.block.timestamp else s.lastRebalanceAt := by
  have hkept := (exec_step h).2
  obtain ⟨b, sender, call, hsender⟩ := tx
  unfold State.exec at h
  cases call with
  | rebalance =>
    obtain ⟨-, A, w, moved, s₁, -, -, -, rfl⟩ := rebalance_eq_ok (silent_eq_ok h)
    rfl
  | adminRebalance targetBalances =>
    have h := silent_eq_ok h
    simp only [State.adminRebalance, bind_eq_ok, Prod.exists, pure_eq_ok] at h
    obtain ⟨_, -, _, -, w, _, -, w', -, rfl⟩ := h
    rfl
  | _ => exact hkept (by simp) (by simp)

/-- The last rebalance of a history, of either kind. -/
def lastRebalance (calls : List (Tx (VaultCall V) × ℕ × ℕ)) : Option (Tx (VaultCall V) × ℕ × ℕ) :=
  latest (fun c => c.1.call.rebalances) true calls

/-- The vault remembers when it was. -/
theorem run_lastRebalanceAt (txs : List (Tx (VaultCall V))) {x : Tx (VaultCall V) × ℕ × ℕ}
    (h : lastRebalance (history (exec env) s₀ txs) = some x) :
    (run (exec env) s₀ txs).lastRebalanceAt = x.1.block.timestamp := by
  revert h
  refine run_invariant
    (P := fun (s : State V) calls => lastRebalance calls = some x → s.lastRebalanceAt = x.1.block.timestamp) ?_ ?_
  · intro h
    cases h
  · intro pre tx post s' r _ hpre hok hlast
    rw [exec_lastRebalanceAt hok]
    unfold lastRebalance at hpre hlast
    by_cases hcall : tx.call.rebalances = true
    · rw [latest_snoc_of_eq (by exact hcall)] at hlast
      rw [if_pos hcall, ← Option.some.inj hlast]
    · rw [latest_snoc_of_ne (by exact hcall)] at hlast
      rw [if_neg hcall]
      exact hpre hlast

/-- **Rebalance is throttled.**  With distinct exact adapters, what a rebalance pulls before it routes sums to at most
the part of the total that the limit allows, so to half of it at most, and no adapter is pulled below the target; and
in every run, a rebalance that succeeds is no earlier than the current interval after the last one of either kind. -/
theorem rebalance_throttled (env : Env V) :
    (∀ ads (s : State V) b sender s', Exact env ads → (∀ a ∈ s.activeAdapters, a ∈ ads) → s.activeAdapters.Nodup →
      s.rebalance env b sender = .ok s' →
      ∃ A w moved s₁, s.totalAssets env = .ok A ∧
        rebalanceLoop env A s.targetBpsFor (A * s.maxRebalanceBpsPerCall.1 / maxBps) s.world s.adapters 0 =
          .ok (w, moved) ∧
        ({ s with world := w } : State V).routeIdle env = .ok s₁ ∧ s' = { s₁ with lastRebalanceAt := b.timestamp } ∧
        Throttled env ads s A w moved) ∧
    (∀ (s₀ : State V) txs tx r x, tx.call = .rebalance → (run (exec env) s₀ txs).exec env tx = .ok r →
      lastRebalance (history (exec env) s₀ txs) = some x →
      x.1.block.timestamp + (run (exec env) s₀ txs).minRebalanceInterval.1 ≤ tx.block.timestamp) := by
  refine ⟨?_, ?_⟩
  · intro ads s b sender s' hexact hads hnodup h
    obtain ⟨-, A, w, moved, s₁, hA, hloop, hroute, hs'⟩ := rebalance_eq_ok h
    exact ⟨A, w, moved, s₁, hA, hloop, hroute, hs', throttled_of_loop hexact hads hnodup hloop⟩
  · intro s₀ txs tx r x hcall h hlast
    rw [← run_lastRebalanceAt txs hlast]
    unfold State.exec at h
    rw [hcall] at h
    exact (rebalance_eq_ok (silent_eq_ok h)).1

/-- A call at a time. -/
def callAt (timestamp : ℕ) (sender : Address) (call : VaultCall Unit) : Tx (VaultCall Unit) :=
  .of sender (.of 10 timestamp) call

/-- The vault `inUse` gets 97 units more, the cap of its second adapter is lowered, and the admin puts ninety units
with the first. -/
def lopsided : List (Tx (VaultCall Unit)) :=
  [callBy 5 (.user (.deposit 97 5)), callAt 5000 20 (.adminRebalance [90, 10])]

/-- The vault then. -/
def leaning : State Unit := run (exec (passthrough 1 2)) inUse lopsided

/-- Twelve hours later 25 of the 40 units above the target are pulled; an hour earlier nothing is. -/
theorem rebalance_throttled_leaning :
    (∃ s' w, leaning.rebalance (passthrough 1 2) (.of 10 48200) 20 = .ok s' ∧
      Throttled (passthrough 1 2) [10, 11] leaning 100 w 25) ∧
    ∀ r, leaning.exec (passthrough 1 2) (callAt 44600 20 .rebalance) ≠ .ok r := by
  obtain ⟨hpull, hwhen⟩ := rebalance_throttled (passthrough 1 2)
  refine ⟨?_, ?_⟩
  · have hok : succeeds (leaning.rebalance (passthrough 1 2) (.of 10 48200) 20) = true := by decide +kernel
    have htotal : leaning.totalAssets (passthrough 1 2) = .ok 100 := by decide +kernel
    have hmoved : (rebalanceLoop (passthrough 1 2) 100 leaning.targetBpsFor
        (100 * leaning.maxRebalanceBpsPerCall.1 / maxBps) leaning.world leaning.adapters 0).map Prod.snd = .ok 25 := by
      decide +kernel
    have hactive : leaning.activeAdapters = [10, 11] := by decide +kernel
    obtain ⟨s', h⟩ := succeeds_iff.mp hok
    obtain ⟨A, w, moved, s₁, hA, hloop, -, -, hthrottled⟩ :=
      hpull [10, 11] leaning _ _ s' (exact_passthrough (by decide)) (by rw [hactive]; exact fun _ ha => ha)
        (by rw [hactive]; decide) h
    obtain rfl : A = 100 := Except.ok.inj (hA.symm.trans htotal)
    rw [hloop] at hmoved
    obtain rfl : moved = 25 := Except.ok.inj hmoved
    exact ⟨s', w, h, hthrottled⟩
  · intro r hr
    have hlast : (lastRebalance (history (exec (passthrough 1 2)) inUse lopsided)).map
        (fun x => x.1.block.timestamp) = some 5000 := by decide +kernel
    have hinterval : (run (exec (passthrough 1 2)) inUse lopsided).minRebalanceInterval.1 = 43200 := by
      decide +kernel
    have hcall : (callAt 44600 20 .rebalance).call = .rebalance := rfl
    have htime : (callAt 44600 20 .rebalance).block.timestamp = 44600 := rfl
    obtain ⟨x, hx, hat⟩ := Option.map_eq_some_iff.mp hlast
    have hle := hwhen inUse lopsided (callAt 44600 20 .rebalance) r x hcall hr hx
    rw [hat, hinterval, htime] at hle
    exact absurd hle (by decide)

end RobotMoney.Vault
