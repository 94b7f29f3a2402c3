import RobotMoney.Gateway.Window

/-!
# The mapping that is not written

The gateway once counted deposits by calendar window, in `agentWindowGross`.  The mapping is still there,
"retained only for ABI compatibility", and no entry point writes it.  `Storage` is the state with it, and
`Kept` what every run keeps of the two accounts: the old one is zero, and an anchored window of the new one
has something in it.
-/

namespace RobotMoney.Gateway

open RobotMoney.Lib State

variable {V : Type}

/-- The storage of the gateway with the mapping that is deprecated. -/
structure Storage (V : Type) extends State V where
  agentWindowGross : Address → ℕ → ℕ

namespace Storage

/-- The constructor. -/
def deploy (env : Env V) (vaultAsset admin pauser : Address) (world : World V) :
    Call GatewayError (Storage V) := do
  let s ← Gateway.deploy env vaultAsset admin pauser world
  pure { s with agentWindowGross := fun _ _ => 0 }

/-- One call: no entry point writes `agentWindowGross`. -/
def exec (env : Env V) (s : Storage V) (tx : Tx (GatewayCall V)) :
    Call GatewayError (Storage V × Receipt) := do
  let (t, r) ← State.exec env s.toState tx
  pure ({ s with toState := t }, r)

variable {env : Env V} {s s' : Storage V} {tx : Tx (GatewayCall V)} {r : Receipt}

theorem exec_eq_ok : exec env s tx = .ok (s', r) ↔
    State.exec env s.toState tx = .ok (s'.toState, r) ∧
      s'.agentWindowGross = s.agentWindowGross := by
  unfold exec
  simp only [bind_eq_ok, pure_eq_ok, Prod.exists, Prod.mk.injEq]
  constructor
  · rintro ⟨t, r', h, rfl, rfl⟩
    exact ⟨h, rfl⟩
  · rintro ⟨h, hgross⟩
    exact ⟨s'.toState, r, h, by rw [← hgross], rfl⟩

theorem deploy_eq_ok {vaultAsset admin pauser : Address} {world : World V} :
    deploy env vaultAsset admin pauser world = .ok s ↔
      Gateway.deploy env vaultAsset admin pauser world = .ok s.toState ∧
        s.agentWindowGross = fun _ _ => 0 := by
  unfold deploy
  simp only [bind_eq_ok, pure_eq_ok]
  constructor
  · rintro ⟨t, h, rfl⟩
    exact ⟨h, rfl⟩
  · rintro ⟨h, hgross⟩
    exact ⟨s.toState, h, by rw [← hgross]⟩

/-- What every run keeps: nothing is written to the deprecated mapping, and a window that is anchored has
something in it. -/
structure Kept (s : Storage V) : Prop where
  unwritten : ∀ agent id, s.agentWindowGross agent id = 0
  anchored : ∀ agent, (s.agentDepositWindow agent).windowStart ≠ 0 →
    0 < (s.agentDepositWindow agent).gross

theorem deploy_kept {vaultAsset admin pauser : Address} {world : World V}
    (h : deploy env vaultAsset admin pauser world = .ok s) : Kept s := by
  obtain ⟨hs, hgross⟩ := deploy_eq_ok.mp h
  obtain ⟨_, _, t, -, -, -, hfresh⟩ := deploy_ok hs
  refine ⟨?_, ?_⟩
  · intro agent id
    rw [hgross]
  · intro agent hne
    rw [hfresh] at hne
    exact absurd rfl hne

/-- What is paid is more than nothing. -/
theorem entry_pos {s s' : State V} {agent : Address} {side : Side} {time amount : ℕ}
    (h : Effect env s tx s' r) (hentry : entry agent side tx = some (time, amount)) : 0 < amount := by
  unfold entry at hentry
  cases hpay : tx.call.payment with
  | none => simp [hpay] at hentry
  | some pay =>
    rw [hpay] at hentry
    dsimp only at hentry
    by_cases hmine : tx.sender = agent ∧ pay.side = side
    · rw [if_pos hmine] at hentry
      cases hentry
      exact (h.paid_of_payment hpay).amount_pos
    · rw [if_neg hmine] at hentry
      cases hentry

theorem accrue_gross_pos {e : GatewayError} {w w' : RollingWindow} {b : Block} {amount cap : ℕ}
    (hpos : 0 < amount) (h : w.accrue e b amount cap = .ok w') : 0 < w'.gross := by
  rcases accrue_cases h with ⟨-, -, rfl⟩ | ⟨-, -, rfl⟩
  · exact hpos
  · exact Nat.add_pos_right _ hpos

theorem Kept.exec (h : Kept s) (hx : exec env s tx = .ok (s', r)) : Kept s' := by
  obtain ⟨hx, hgross⟩ := exec_eq_ok.mp hx
  have heff := exec_effect hx
  refine ⟨?_, ?_⟩
  · intro agent id
    rw [hgross]
    exact h.unwritten agent id
  · intro agent hne
    rcases heff.window_cases agent .deposit with ⟨-, hw⟩ | ⟨amount, hentry, -, hacc⟩
    · have hw : s'.agentDepositWindow agent = s.agentDepositWindow agent := hw
      rw [hw] at hne ⊢
      exact h.anchored agent hne
    · exact accrue_gross_pos (entry_pos heff hentry) hacc

/-- Every run of the deployed gateway keeps it. -/
theorem run_kept {vaultAsset admin pauser : Address} {world : World V} {s₀ : Storage V}
    (h₀ : deploy env vaultAsset admin pauser world = .ok s₀) (txs : List (Tx (GatewayCall V))) :
    Kept (run (exec env) s₀ txs) := by
  refine run_invariant (P := fun s _ => Kept s) (deploy_kept h₀) ?_
  intro pre tx post s' r _ hkept hx
  exact hkept.exec hx

/-- What a deposit is charged with beside its own amount is nothing exactly when the window has expired. -/
theorem Kept.effective_eq_zero_iff (h : Kept s) (b : Block) (agent : Address) :
    s.effectiveDepositWindowGross b agent = 0 ↔ (s.agentDepositWindow agent).Expired b := by
  unfold State.effectiveDepositWindowGross RollingWindow.effectiveGross
  constructor
  · intro hzero
    by_contra hexp
    rw [if_neg hexp] at hzero
    have hpos := h.anchored agent fun hstart => hexp (.inl hstart)
    omega
  · exact fun hexp => if_pos hexp

end Storage

end RobotMoney.Gateway
