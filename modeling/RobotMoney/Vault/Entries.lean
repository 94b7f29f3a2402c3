import RobotMoney.Vault.Pull

/-!
# The entries of the adapter registry

Entries are appended, and edited in place; none is ever deleted.  `totalAssets` adds up what the adapters
of the active entries report, which is the vault's wealth only if no adapter has two of them.  Nothing
but `addAdapter` makes an entry active, and it does not look whether its adapter has one already: the
entries stay distinct if and only if no such call is made (`adapters_distinct_iff`).
-/

namespace RobotMoney.Vault

open RobotMoney.Lib State

variable {V : Type} {env : Env V} {s s' s₀ : State V} {tx : Tx (VaultCall V)}

/-! ### Editing an entry -/

/-- An active entry edited, with the same adapter: it is still active, or its adapter is gone. -/
theorem active_set {i i' : AdapterInfo} (hactive : i.active = true) (hsame : i'.adapter = i.adapter) :
    ∀ {is : List AdapterInfo} {index : ℕ}, is[index]? = some i →
      (active (is.set index i')).Sublist (active is)
  | j :: is, 0, h => by
    obtain rfl : j = i := by simpa using h
    rw [List.set_cons_zero, active_cons hactive]
    cases hi' : i'.active with
    | true =>
      rw [active_cons hi', hsame]
    | false =>
      rw [active_cons_of_not hi']
      exact List.sublist_cons_self _ _
  | j :: is, index + 1, h => by
    have hentry : is[index]? = some i := by simpa using h
    have hrest := active_set hactive hsame hentry
    rw [List.set_cons_succ]
    cases hj : j.active with
    | true =>
      rw [active_cons hj, active_cons hj]
      exact hrest.cons_cons j.adapter
    | false =>
      rw [active_cons_of_not hj, active_cons_of_not hj]
      exact hrest

theorem active_append (is : List AdapterInfo) {i : AdapterInfo} (hactive : i.active = true) :
    active (is ++ [i]) = active is ++ [i.adapter] := by
  unfold active
  rw [List.filter_append, List.map_append]
  simp [hactive]

/-! ### The invariant -/

/-- No adapter has two active entries, and the total counts what each of them reports once. -/
structure CountsOnce (env : Env V) (s : State V) : Prop where
  nodup : s.activeAdapters.Nodup
  total : ∀ A, s.totalAssets env = .ok A →
    A = s.idle env + ∑ a ∈ s.activeAdapters.toFinset, env.adapterAssets s.world a

theorem countsOnce_iff : CountsOnce env s ↔ s.activeAdapters.Nodup := by
  refine ⟨fun h => h.nodup, fun h => ⟨h, ?_⟩⟩
  intro A hA
  obtain ⟨-, rfl⟩ := totalAssets_eq_ok.mp hA
  rw [List.sum_toFinset _ h]
  rfl

/-- The call adds an adapter that has an active entry, and passes every check. -/
structure AddsAgain (env : Env V) (s : State V) (tx : Tx (VaultCall V)) (adapter : Address) (capBps : ℕ) :
    Prop where
  call : tx.call = .addAdapter adapter capBps
  active : adapter ∈ s.activeAdapters
  admin : s.roles .adminRole tx.sender = true
  cap : 0 < capBps ∧ capBps ≤ maxBps
  count : s.activeAdapterCount < maxAdapters
  eligible : s.requireAdapterEligible env adapter = .ok ()

theorem nodup_step (h : s.activeAdapters.Nodup) (he : Effect env s tx s')
    (hagain : ∀ adapter capBps, ¬ AddsAgain env s tx adapter capBps) : s'.activeAdapters.Nodup := by
  cases he with
  | quiet hq =>
    unfold State.activeAdapters
    rw [hq.adapters]
    exact h
  | added hcall hadmin hne hpos hle hcount heligible =>
    rename_i adapter capBps
    have hout : adapter ∉ s.activeAdapters := fun hin =>
      hagain adapter capBps ⟨hcall, hin, hadmin, ⟨hpos, hle⟩, hcount, heligible⟩
    change (active (s.adapters ++ [_])).Nodup
    rw [active_append s.adapters rfl]
    exact h.append (List.nodup_singleton adapter) (by simpa using hout)
  | edited hentry hactive hsame => exact (active_set hactive hsame hentry).nodup h
  | paused _ => exact h
  | unpaused _ => exact h
  | emergency _ _ => exact h
  | granted _ => exact h
  | dropped _ _ => exact h

/-- The adapter is added again, and is counted twice. -/
theorem AddsAgain.breaks {adapter : Address} {capBps : ℕ} (h : AddsAgain env s tx adapter capBps) :
    ¬ (next (exec env) s tx).activeAdapters.Nodup := by
  have hne : adapter ≠ 0 := by
    obtain ⟨i, -, rfl⟩ := List.mem_map.mp h.active
    exact i.adapter_ne
  have hadd : s.addAdapter env tx.sender adapter capBps =
      .ok { s with adapters := s.adapters ++ [⟨adapter, capBps, true, hne, h.cap.1, h.cap.2⟩] } := by
    unfold State.addAdapter
    rw [Roles.check_eq_ok (u := ()) |>.mpr h.admin, ok_bind, dif_pos hne, dif_pos h.cap,
      revertIf_neg (Nat.not_le.mpr h.count), ok_bind, h.eligible]
    rfl
  have hok : s.exec env tx = .ok
      ({ s with adapters := s.adapters ++ [⟨adapter, capBps, true, hne, h.cap.1, h.cap.2⟩] }, 0, 0) := by
    unfold State.exec
    rw [h.call]
    dsimp only
    rw [hadd]
    rfl
  rw [next_of_ok hok]
  intro hnodup
  change (Vault.active (s.adapters ++ [_])).Nodup at hnodup
  rw [active_append s.adapters rfl, List.nodup_append] at hnodup
  obtain ⟨-, -, hdisjoint⟩ := hnodup
  exact hdisjoint adapter h.active adapter (List.mem_singleton_self adapter) rfl

/-- **The entries are distinct.**  In every state of a run from the constructor no adapter has two active
entries, and the total counts each adapter once, if and only if no call of the run adds an adapter that
has an active entry. -/
theorem adapters_distinct_iff {tvlCap perDepositCap exitFeeBps : ℕ} {feeRecipient admin : Address}
    {world : World V} (h : deploy tvlCap perDepositCap exitFeeBps feeRecipient admin world = .ok s₀)
    (txs : List (Tx (VaultCall V))) :
    (∀ pre post, txs = pre ++ post → CountsOnce env (run (exec env) s₀ pre)) ↔
      ∀ pre tx post, txs = pre ++ tx :: post →
        ∀ adapter capBps, ¬ AddsAgain env (run (exec env) s₀ pre) tx adapter capBps := by
  have h₀ : s₀.activeAdapters.Nodup := by
    obtain ⟨fee, recipient, rfl⟩ := deploy_eq_ok h
    exact List.nodup_nil
  constructor
  · intro honce pre tx post hsplit adapter capBps hagain
    have hnext : run (exec env) s₀ (pre ++ [tx]) = next (exec env) (run (exec env) s₀ pre) tx := run_append
    refine hagain.breaks ?_
    rw [← hnext]
    exact (honce (pre ++ [tx]) post (by simpa using hsplit)).nodup
  · intro hnew pre post hsplit
    refine countsOnce_iff.mpr (run_invariant (P := fun (s : State V) _ => s.activeAdapters.Nodup) h₀ ?_)
    intro pre₁ tx post₁ s' r hpre hnodup hok
    refine nodup_step hnodup (exec_effect hok) (hnew pre₁ tx (post₁ ++ post) ?_)
    rw [hsplit, hpre, List.append_assoc, List.cons_append]

/-- The two adapters of `opened` are distinct. -/
theorem adapters_distinct_iff_opened :
    CountsOnce (passthrough 1 2) inUse ∧ inUse.activeAdapters = [10, 11] := by
  have hdeploy : deploy 1000 500 100 21 20 userWorld = .ok deployed := rfl
  refine ⟨(adapters_distinct_iff hdeploy opened).mpr ?_ opened [] (List.append_nil opened).symm, by
    decide +kernel⟩
  refine forall_step_cons ?_ (forall_step_cons ?_ (forall_step_cons ?_ (forall_step_cons ?_
    (forall_step_cons ?_ (forall_step_cons ?_ forall_step_nil)))))
  all_goals
    intro adapter capBps h
    have hcall := h.call
    have hactive := h.active
    cases hcall
  · exact absurd hactive (by decide +kernel)
  · exact absurd hactive (by decide +kernel)

/-- The adapter `10` is added twice, and three units are deposited. -/
def doubled : List (Tx (VaultCall Unit)) :=
  [callBy 20 (.setAdapterCodeHashAllowed 1 true), callBy 20 (.setAdapterAllowed 10 true),
   callBy 20 (.addAdapter 10 10000), callBy 20 (.addAdapter 10 10000), callBy 5 (.user (.deposit 3 5))]

/-- The vault then reports six units: what the adapter holds is counted twice. -/
theorem adapter_counted_twice :
    (run (exec (passthrough 1 2)) deployed doubled).activeAdapters = [10, 10] ∧
      (run (exec (passthrough 1 2)) deployed doubled).idle (passthrough 1 2) = 0 ∧
      (passthrough 1 2).adapterAssets (run (exec (passthrough 1 2)) deployed doubled).world 10 = 3 ∧
      (run (exec (passthrough 1 2)) deployed doubled).totalAssets (passthrough 1 2) = .ok 6 := by
  refine ⟨by decide +kernel, by decide +kernel, by decide +kernel, by decide +kernel⟩

end RobotMoney.Vault
