import RobotMoney.Gateway.Payments
import RobotMoney.Lib.Window

/-!
# The rolling window

The gateway meters each agent's deposits, and its withdrawals, with one anchor and one total.  The
anchor is meant to move "only after a full `WINDOW_SECONDS` has elapsed with no further withdrawal".
In the code it moves at the first payment that comes `WINDOW_SECONDS` after the *anchor*, however
recent the last payment is, and then the total forgets that payment: almost twice the cap fits in one
window (`window_burst`).

In a run in which every payment that moves the anchor comes `WINDOW_SECONDS` after all earlier ones
(`Rested`), no window sees more than the cap (`rolling_window_bounded`).
-/

namespace RobotMoney.Gateway

open RobotMoney.Lib State

variable {V : Type} {env : Env V} {s s' : State V} {r : Receipt} {tx : Tx (GatewayCall V)}
  {a : Address} {side : Side}

/-- The time and the amount of a call, if it is a payment of agent `a` on `side`. -/
def entry (a : Address) (side : Side) (tx : Tx (GatewayCall V)) : Option (ℕ × ℕ) :=
  match tx.call.payment with
  | some pay => if tx.sender = a ∧ pay.side = side then some (tx.block.timestamp, pay.amount) else none
  | none => none

/-- What agent `a` has paid on `side`, and when. -/
def ledger (a : Address) (side : Side) (log : Log V) : List (ℕ × ℕ) :=
  log.filterMap fun x => entry a side x.1

theorem ledger_snoc (log : Log V) :
    ledger a side (log ++ [(tx, r)]) = ledger a side log ++ (entry a side tx).toList := by
  unfold ledger
  rw [List.filterMap_append]
  cases h : entry a side tx <;> simp [h]

/-! ### One step -/

/-- The two ways to go on counting. -/
theorem accrue_cases {e : GatewayError} {w w' : RollingWindow} {b : Block} {amount cap : ℕ}
    (h : w.accrue e b amount cap = .ok w') :
    (w.Expired b ∧ amount ≤ cap ∧ w' = ⟨b.timestamp, amount⟩) ∨
      (¬ w.Expired b ∧ w.gross + amount ≤ cap ∧ w' = ⟨w.windowStart, w.gross + amount⟩) := by
  unfold RollingWindow.accrue at h
  simp only [bind_eq_ok, addU_eq_ok, revertIf_eq_ok, exists_const, pure_eq_ok, Nat.not_lt] at h
  obtain ⟨projected, ⟨-, rfl⟩, hcap, rfl⟩ := h
  by_cases hexp : w.Expired b
  · left
    rw [if_pos hexp, Nat.zero_add] at hcap
    refine ⟨hexp, hcap, ?_⟩
    rw [if_pos hexp, if_pos hexp, Nat.zero_add]
  · right
    rw [if_neg hexp] at hcap
    refine ⟨hexp, hcap, ?_⟩
    rw [if_neg hexp, if_neg hexp]

/-- A call either is a payment of `a` on `side`, or leaves its window and its ledger alone. -/
theorem Effect.window_cases (h : Effect env s tx s' r) (a : Address) (side : Side) :
    (entry a side tx = none ∧ side.window s' a = side.window s a) ∨
      ∃ amount, entry a side tx = some (tx.block.timestamp, amount) ∧
        (s.agents a).active = true ∧
        (side.window s a).accrue side.exceeded tx.block amount (side.windowCap (s.agents a)) =
          .ok (side.window s' a) := by
  cases hpay : tx.call.payment with
  | none =>
    left
    refine ⟨by simp [entry, hpay], ?_⟩
    cases h with
    | paid hc =>
      rw [hpay] at hc
      cases hc
    | _ => cases side <;> rfl
  | some pay =>
    have hp := h.paid_of_payment hpay
    obtain ⟨w, hacc, hs'⟩ := hp.state
    have hw : side.window s' a = if side = pay.side ∧ a = tx.sender then w else side.window s a := by
      rw [← Side.window_setWindow, hs']
      cases side <;> rfl
    by_cases hmine : tx.sender = a ∧ pay.side = side
    · obtain ⟨rfl, rfl⟩ := hmine
      right
      refine ⟨pay.amount, by simp [entry, hpay], hp.active, ?_⟩
      rw [hw, if_pos ⟨rfl, rfl⟩]
      exact hacc
    · left
      refine ⟨?_, ?_⟩
      · simp only [entry, hpay]
        rw [if_neg hmine]
      · rw [hw, if_neg]
        rintro ⟨h₁, h₂⟩
        exact hmine ⟨h₂.symm, h₁.symm⟩

/-! ### Runs -/

/-- The calls come in the order of their times. -/
def Timed (txs : List (Tx (GatewayCall V))) : Prop :=
  txs.Pairwise fun x y => x.block.timestamp ≤ y.block.timestamp

/-- A payment of `a` on `side` that succeeds after `pre` and finds its window expired comes
`WINDOW_SECONDS` after all earlier ones. -/
def RestedAt (env : Env V) (s₀ : State V) (a : Address) (side : Side)
    (pre : List (Tx (GatewayCall V))) (tx : Tx (GatewayCall V)) : Prop :=
  entry a side tx ≠ none → succeeds (exec env (run (exec env) s₀ pre) tx) = true →
    (side.window (run (exec env) s₀ pre) a).Expired tx.block →
    ∀ x ∈ ledger a side (history (exec env) s₀ pre), x.1 + windowSeconds ≤ tx.block.timestamp

instance (env : Env V) (s₀ : State V) (a : Address) (side : Side) (pre : List (Tx (GatewayCall V)))
    (tx : Tx (GatewayCall V)) : Decidable (RestedAt env s₀ a side pre tx) :=
  inferInstanceAs (Decidable (_ → _ → _ → _))

/-- Every step of the run is so. -/
def Rested (env : Env V) (s₀ : State V) (a : Address) (side : Side)
    (txs : List (Tx (GatewayCall V))) : Prop :=
  ∀ pre tx post, txs = pre ++ tx :: post → RestedAt env s₀ a side pre tx

/-- While `a` is authorized, its window cap on `side` is `M`. -/
def CapConstant (env : Env V) (s₀ : State V) (a : Address) (side : Side) (M : ℕ)
    (txs : List (Tx (GatewayCall V))) : Prop :=
  ∀ pre, pre <+: txs → ((run (exec env) s₀ pre).agents a).active = true →
    side.windowCap ((run (exec env) s₀ pre).agents a) = M

/-- The window of the gateway tracks the ledger. -/
def Metered (a : Address) (side : Side) (M : ℕ) (s : State V) (log : Log V) : Prop :=
  (∃ old cur, ledger a side log = old ++ cur ∧
    Tracks windowSeconds M (side.window s a).windowStart (side.window s a).gross old cur) ∧
  ((side.window s a).windowStart = 0 ∨
    ∃ x ∈ log, x.1.block.timestamp = (side.window s a).windowStart)

theorem Metered.step {M : ℕ} {log : Log V} (h : Metered a side M s log) (he : Effect env s tx s' r)
    (hcap : (s.agents a).active = true → side.windowCap (s.agents a) = M)
    (htime : ∀ x ∈ log, x.1.block.timestamp ≤ tx.block.timestamp)
    (hrest : entry a side tx ≠ none → (side.window s a).Expired tx.block →
      ∀ x ∈ ledger a side log, x.1 + windowSeconds ≤ tx.block.timestamp) :
    Metered a side M s' (log ++ [(tx, r)]) := by
  obtain ⟨⟨old, cur, hsplit, htracks⟩, hstart⟩ := h
  rcases he.window_cases a side with ⟨hentry, hw⟩ | ⟨amount, hentry, hact, hacc⟩
  · unfold Metered
    rw [ledger_snoc, hentry, hw]
    refine ⟨⟨old, cur, by simpa using hsplit, htracks⟩, ?_⟩
    rcases hstart with h | ⟨x, hx, heq⟩
    · exact .inl h
    · exact .inr ⟨x, List.mem_append_left _ hx, heq⟩
  · unfold Metered
    rw [ledger_snoc, hentry, hsplit]
    rw [hcap hact] at hacc
    rcases accrue_cases hacc with ⟨hexp, hle, hw⟩ | ⟨hexp, hle, hw⟩
    · -- the anchor moves to the present
      rw [hw]
      refine ⟨⟨old ++ cur, [(tx.block.timestamp, amount)], rfl, ?_⟩, ?_⟩
      · refine htracks.reanchor ?_ hle
        rw [← hsplit]
        refine hrest ?_ hexp
        rw [hentry]
        exact Option.some_ne_none _
      · exact .inr ⟨(tx, r), List.mem_append_right _ (List.mem_singleton_self _), rfl⟩
    · -- the anchor stays: it is the time of an earlier call
      rw [hw]
      have hne : (side.window s a).windowStart ≠ 0 := by
        intro hzero
        exact hexp (.inl hzero)
      obtain ⟨x, hx, heq⟩ := hstart.resolve_left hne
      refine ⟨⟨old, cur ++ [(tx.block.timestamp, amount)], by simp, ?_⟩, ?_⟩
      · refine htracks.add ?_ hle
        rw [← heq]
        exact htime x hx
      · exact .inr ⟨x, List.mem_append_left _ hx, heq⟩

theorem deploy_metered {vaultAsset admin pauser : Address} {world : World V} {M : ℕ}
    (h : deploy env vaultAsset admin pauser world = .ok s) : Metered a side M s [] := by
  obtain ⟨_, _, t, -, -, -, rfl⟩ := deploy_ok h
  cases side <;> exact ⟨⟨[], [], rfl, Tracks.init⟩, .inl rfl⟩

/-- **The rolling cap.**  In every run of the deployed gateway, whatever is called and whoever is
authorized and revoked in between, in which an agent's window cap is a constant `M` and each of its
payments that moves the anchor comes `WINDOW_SECONDS` after all its earlier ones: in every interval of
`WINDOW_SECONDS` the agent pays at most `M`. -/
theorem rolling_window_bounded {vaultAsset admin pauser : Address} {world : World V} {s₀ : State V}
    {M : ℕ} {txs : List (Tx (GatewayCall V))}
    (h₀ : deploy env vaultAsset admin pauser world = .ok s₀) (htimed : Timed txs)
    (hcap : CapConstant env s₀ a side M txs) (hrest : Rested env s₀ a side txs) (start : ℕ) :
    spent windowSeconds start (ledger a side (history (exec env) s₀ txs)) ≤ M := by
  have hmet : Metered a side M (run (exec env) s₀ txs) (history (exec env) s₀ txs) := by
    refine run_invariant (deploy_metered h₀) ?_
    intro pre tx post s' r hsplit hmet hx
    refine hmet.step (exec_effect hx) (hcap pre ⟨tx :: post, hsplit.symm⟩) ?_ ?_
    · intro x hx
      have hmem : x.1 ∈ pre := history_sublist.subset (List.mem_map_of_mem hx)
      unfold Timed at htimed
      rw [hsplit, List.pairwise_append] at htimed
      exact htimed.2.2 x.1 hmem tx List.mem_cons_self
    · intro hentry hexp
      exact hrest pre tx post hsplit hentry (succeeds_iff.mpr ⟨_, hx⟩) hexp
  obtain ⟨⟨old, cur, hsplit, htracks⟩, -⟩ := hmet
  rw [hsplit]
  exact htracks.spent_le start

/-- A property of all steps of a run, step by step. -/
theorem rested_iff {s₀ : State V} {txs : List (Tx (GatewayCall V))} :
    Rested env s₀ a side txs ↔
      ∀ i : Fin txs.length, RestedAt env s₀ a side (txs.take i) (txs.get i) := by
  constructor
  · intro h i
    refine h _ _ (txs.drop (i + 1)) ?_
    rw [List.get_eq_getElem, List.cons_getElem_drop_succ, List.take_append_drop]
  · rintro h pre tx post rfl
    have hi := h ⟨pre.length, by simp⟩
    simpa using hi

theorem capConstant_iff {s₀ : State V} {M : ℕ} {txs : List (Tx (GatewayCall V))} :
    CapConstant env s₀ a side M txs ↔
      ∀ pre ∈ txs.inits, ((run (exec env) s₀ pre).agents a).active = true →
        side.windowCap ((run (exec env) s₀ pre).agents a) = M := by
  unfold CapConstant
  simp only [List.mem_inits]

/-- 1 unit, then 99 within the day, and 100 a day after these. -/
def paced : List (Tx (GatewayCall Unit)) :=
  [.of 5 (.of 10 900) (.authorizeAgent 7 upTo100),
   .of 7 (.of 11 1000) (.deposit (.word 1) 1 1100 (.word 0)),
   .of 7 (.of 12 87399) (.deposit (.word 2) 99 87400 (.word 0)),
   .of 7 (.of 13 173799) (.deposit (.word 3) 100 173800 (.word 0))]

theorem rolling_window_bounded_sample :
    ledger 7 .deposit (history (exec mockVault) deployed paced) =
      [(1000, 1), (87399, 99), (173799, 100)] ∧
    ∀ start, spent windowSeconds start
      (ledger 7 .deposit (history (exec mockVault) deployed paced)) ≤ 100 := by
  refine ⟨by decide, ?_⟩
  have htimed : Timed paced := by
    unfold Timed
    decide
  have hcap : CapConstant mockVault deployed 7 .deposit 100 paced := by
    rw [capConstant_iff]
    decide
  have hrest : Rested mockVault deployed 7 .deposit paced := by
    rw [rested_iff]
    decide
  exact rolling_window_bounded deploy_deployed htimed hcap hrest

/-- 1 unit, then 99 within the day, and 100 one second later: a day after the first. -/
def burst : List (Tx (GatewayCall Unit)) :=
  [.of 5 (.of 10 900) (.authorizeAgent 7 upTo100),
   .of 7 (.of 11 1000) (.deposit (.word 1) 1 1100 (.word 0)),
   .of 7 (.of 12 87399) (.deposit (.word 2) 99 87400 (.word 0)),
   .of 7 (.of 13 87400) (.deposit (.word 3) 100 87500 (.word 0))]

/-- Under a constant cap of 100 units a window, 199 units pass in two seconds. -/
theorem window_burst : Timed burst ∧ CapConstant mockVault deployed 7 .deposit 100 burst ∧
    spent windowSeconds 87399 (ledger 7 .deposit (history (exec mockVault) deployed burst)) = 199 := by
  refine ⟨?_, ?_, by decide⟩
  · unfold Timed
    decide
  · rw [capConstant_iff]
    decide

end RobotMoney.Gateway
