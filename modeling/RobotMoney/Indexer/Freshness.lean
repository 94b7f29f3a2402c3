import RobotMoney.Indexer.Provenance

/-!
# Rows agree with headers, and with the chain

Two properties of a whole run of ticks, both from the invariant `Origin`:

* `rows_agree`: the node may switch from one chain to another between any two calls; every row came
  from a log in the block whose header is stored at its height;
* `rows_fresh`: the chain may be reorganized between ticks, and any call may fail; after a tick without
  an error, every row up to the cursor is one of the chain of that tick.

Each has a condition on the ticks of the run, and a run that does not meet it and goes wrong.
-/

namespace RobotMoney.Indexer

open RobotMoney.Lib Fallible

variable {cfg : IndexerConfig} {sess : Session} {db : Db} {p : Poll} {S : Source} {chain chain' : Chain}
  {n : ℕ} {x : Record}

/-! ### Rows and headers -/

/-- No row has come from a log. -/
def noSource : Source := fun _ _ => False

/-- The tables, and the sources of their rows, after some ticks. -/
def afterSessions (cfg : IndexerConfig) : Db × Source → List Session → Db × Source
  | s, [] => s
  | s, sess :: rest =>
    afterSessions cfg ((tick sess cfg s.1).2, nextSource sess cfg s.1 s.2) rest

/-- A row at a height with a stored header came from a log, and from none of another block. -/
def RowsAgree (cfg : IndexerConfig) (s : Db × Source) : Prop :=
  ∀ x P, s.1.Holds x → s.1.getBlockHash cfg.chainId x.position.blockNumber = some P →
    (∃ e, s.2 x e) ∧ ∀ e, s.2 x e → recordOf cfg e = some x ∧ e.blockHash = P

/-- Every tick of a run is consistent. -/
def ConsistentRun (cfg : IndexerConfig) : Db → List Session → Prop
  | _, [] => True
  | db, sess :: rest => Consistent cfg db sess ∧ ConsistentRun cfg (tick sess cfg db).2 rest

theorem origin_empty {G : ℕ → BlockHash → Prop} : Origin cfg noSource G Db.empty := by
  refine ⟨?_, ?_, ?_⟩
  · intro x hx
    cases x <;> simp [Db.Holds, Db.empty] at hx
  · intro x _ e he
    exact he.elim
  · intro n P hP
    cases hP

theorem Origin.rowsAgree {G : ℕ → BlockHash → Prop} (h : Origin cfg S G db) : RowsAgree cfg (db, S) := by
  intro x P hx hP
  refine ⟨h.sourced x hx, ?_⟩
  intro e he
  have hplaced := h.placed x hx e he
  refine ⟨hplaced.record, ?_⟩
  have hheader := hplaced.header
  rw [show e.blockNumber = x.position.blockNumber by rw [recordOf_position hplaced.record]; rfl] at hheader
  exact Option.some.inj (hheader.symm.trans hP)

/-- The stored headers may be any. -/
def AnyHeader (_ : ℕ) (_ : BlockHash) : Prop := True

/-- The invariant along a run. -/
theorem ConsistentRun.origin {sessions : List Session} (ho : Origin cfg S AnyHeader db)
    (h : ConsistentRun cfg db sessions) :
    Origin cfg (afterSessions cfg (db, S) sessions).2 AnyHeader
      (afterSessions cfg (db, S) sessions).1 := by
  induction sessions generalizing db S with
  | nil => exact ho
  | cons sess rest ih =>
    obtain ⟨hcons, hrest⟩ := h
    have hany : ∀ n P, AnyHeader n P := fun _ _ => trivial
    have htick := (tick_origin (fun _ _ n P _ => hany n P) (fun _ _ _ _ _ n P _ => hany n P) ho hcons).1
    exact ih (htick.elim id id) hrest

/-- **Rows and headers agree.**  In a run of consistent ticks, every row at a height with a stored
header came from a log of the block with that hash. -/
theorem rows_agree (cfg : IndexerConfig) (sessions : List Session)
    (h : ConsistentRun cfg Db.empty sessions) :
    RowsAgree cfg (afterSessions cfg (Db.empty, noSource) sessions) :=
  (h.origin origin_empty).rowsAgree

/-- The deposit at height two of the new chain, and its row. -/
def depositEntry : LogEntry :=
  ⟨⟨1, .event (.agentDeposit 11 12 5 6 100 100 0), 77, 0, 0⟩, 2, ⟨newChain.blocks.take 3⟩⟩

def depositRecord : Record :=
  .deposit { chainId := 8453, blockNumber := 2, logIndex := 0, txHash := 77, paymentId := 11,
             orderId := 12, agent := 5, shareReceiver := 6, amount := 100, sharesMinted := 100,
             windowId := 0, vault := some 2 }

/-- The node answers on one chain up to the call `k`, and then on another. -/
def switching (chain chain' : Chain) (k : ℕ) : Session :=
  ⟨fun m => ⟨if m ≤ k then chain else chain', fun _ _ _ => .word 0⟩, fun _ => false⟩

theorem rows_agree_switched :
    ConsistentRun (deployment 100) Db.empty [switching oldChain newChain 4] ∧
      RowsAgree (deployment 100)
        (afterSessions (deployment 100) (Db.empty, noSource) [switching oldChain newChain 4]) := by
  have hrun : ConsistentRun (deployment 100) Db.empty [switching oldChain newChain 4] := by
    refine ⟨⟨?_, .inr ?_⟩, trivial⟩
    · intro m m' hm hle n e he _ P hP
      have hm : 5 ≤ m := hm
      have hnew : ∀ j, 5 ≤ j → ((switching oldChain newChain 4).node j).chain = newChain :=
        fun j hj => if_neg (by omega)
      rw [hnew m hm] at he
      rw [hnew m' (by omega)] at hP
      obtain ⟨-, rfl⟩ := hashAt_eq_some hP
      exact (logsAt_blockHash he).symm
    · intro m _ n _ e _ _ P hP
      cases hP
  exact ⟨hrun, rows_agree (deployment 100) [switching oldChain newChain 4] hrun⟩

/-- **The chain switches between logs and headers.**  The logs of the tick are of the new chain, with a
deposit at height two, and the block fetched for it is the old chain's. -/
theorem logs_of_another_block :
    ¬ RowsAgree (deployment 100)
      (afterSessions (deployment 100) (Db.empty, noSource) [switching newChain oldChain 6]) := by
  intro h
  have hsource : nextSource (switching newChain oldChain 6) (deployment 100) Db.empty noSource depositRecord
      depositEntry := .inr ⟨by decide +kernel, by decide +kernel, rfl⟩
  have hheader := (h depositRecord ⟨oldChain.blocks.take 3⟩ (by decide +kernel) (by decide +kernel)).2
    depositEntry hsource
  exact absurd hheader.2 (by decide +kernel)

/-! ### Rows and the chain -/

/-- After some ticks on a new database, one more that returns without an error leaves, up to its cursor,
only rows of its chain. -/
def FreshAfter (cfg : IndexerConfig) (polls : List Poll) (p : Poll) : Prop :=
  ∀ o db', tick p.session cfg (afterTicks cfg Db.empty polls) = (.ok o, db') → o.error = none →
    ∀ T, o.lastIndexedBlock = some T → ∀ x, db'.Holds x → x.position.blockNumber ≤ T →
      x ∈ recordsAt cfg p.chain.blocks x.position.blockNumber

/-- Unless the chain has another block at the cursor, it has all blocks whose headers are stored. -/
def Checked (cfg : IndexerConfig) (db : Db) (p : Poll) : Prop :=
  ¬ Reorganized (fun n => db.getBlockHash cfg.chainId n) p.chain (db.lastIndexedBlock cfg.chainId) →
    ∀ n P, db.getBlockHash cfg.chainId n = some P → p.chain.hashAt n = some P

/-- Every tick of a run is checked. -/
def CheckedRun (cfg : IndexerConfig) : Db → List Poll → Prop
  | _, [] => True
  | db, p :: ps => Checked cfg db p ∧ CheckedRun cfg (tick p.session cfg db).2 ps

/-- The stored headers are those of a chain. -/
def HeadersOf (chain : Chain) (n : ℕ) (P : BlockHash) : Prop := chain.hashAt n = some P

/-- Chains that have one block in common have those below it in common. -/
theorem hashAt_of_common {m : ℕ} {P Q : BlockHash} (h : chain.hashAt m = some Q)
    (h' : chain'.hashAt m = some Q) (hle : n ≤ m) (hP : chain.hashAt n = some P) :
    chain'.hashAt n = some P := by
  obtain ⟨-, rfl⟩ := hashAt_eq_some h
  obtain ⟨hlt, heq⟩ := hashAt_eq_some h'
  obtain ⟨-, rfl⟩ := hashAt_eq_some hP
  unfold Chain.hashAt
  rw [if_pos (by omega), take_eq_of_le (BlockHash.mk.inj heq) (by omega : n + 1 ≤ m + 1)]

/-- A checked tick is consistent: its chain does not change. -/
theorem Checked.consistent (h : Checked cfg db p) : Consistent cfg db p.session := by
  have hlogs : ∀ n, ∀ e ∈ logsAt p.chain.blocks n, ∀ P, p.chain.hashAt n = some P →
      P = e.blockHash := by
    intro n e he P hP
    obtain ⟨-, rfl⟩ := hashAt_eq_some hP
    exact (logsAt_blockHash he).symm
  refine ⟨?_, ?_⟩
  · intro m m' _ _ n e he _ P hP
    exact hlogs n e he P hP
  · by_cases hre : Reorganized (fun n => db.getBlockHash cfg.chainId n) p.chain
      (db.lastIndexedBlock cfg.chainId)
    · exact .inl hre
    · right
      intro m _ n _ e he _ P hP
      exact hlogs n e he P (h hre n P hP)

/-- **One tick.**  The rows and headers after a checked tick are of one chain, and of its own if it ends
without an error. -/
theorem Checked.tick_origin (h : Checked cfg db p) (ho : Origin cfg S (HeadersOf chain) db) :
    ∃ S', (∃ chain', Origin cfg S' (HeadersOf chain') (tick p.session cfg db).2) ∧
      ∀ o, (tick p.session cfg db).1 = .ok o → o.error = none →
        Origin cfg S' (HeadersOf p.chain) (tick p.session cfg db).2 := by
  have hold : ∀ d r db', Unmoved db d →
      AfterCheck cfg p.session (startCalls cfg) (db.lastIndexedBlock cfg.chainId) d r db' →
      ∀ n P, db'.getBlockHash cfg.chainId n = some P → HeadersOf p.chain n P := by
    intro d r db' hun hcheck n P hP
    cases hcheck with
    | quiet hno =>
      have hstored : (fun n => d.getBlockHash cfg.chainId n) = fun n => db.getBlockHash cfg.chainId n := by
        funext n
        exact hun.getBlockHash
      rw [hstored] at hno
      exact h hno n P (hun.getBlockHash.symm.trans hP)
    | @rolled root hroot =>
      rw [getBlockHash_belowRoot] at hP
      split at hP
      · cases hP
      · -- below the root, the chain of the headers and that of the tick are one
        obtain ⟨m, hm⟩ := Int.eq_ofNat_of_zero_le (show (0 : ℤ) ≤ root by omega)
        obtain ⟨_, Q, -, hQ, hshown⟩ := hroot m hm
        have hdb := ho.unmoved hun
        exact hashAt_of_common (hdb.headers m Q hQ) hshown (by omega) (hdb.headers n P hP)
  have hnew : ∀ m, startCalls cfg ≤ m → ∀ n P, (p.session.node m).chain.hashAt n = some P →
      HeadersOf p.chain n P := fun m _ n P hP => hP
  obtain ⟨hany, hend⟩ := Indexer.tick_origin hnew hold ho h.consistent
  refine ⟨_, ?_, hend⟩
  rcases hany with hany | hany
  · exact ⟨chain, hany⟩
  · exact ⟨p.chain, hany⟩

/-- The invariant along a run. -/
theorem CheckedRun.origin {polls rest : List Poll} (ho : Origin cfg S (HeadersOf chain) db)
    (h : CheckedRun cfg db (polls ++ rest)) :
    (∃ S' chain', Origin cfg S' (HeadersOf chain') (afterTicks cfg db polls)) ∧
      CheckedRun cfg (afterTicks cfg db polls) rest := by
  induction polls generalizing db S chain with
  | nil => exact ⟨⟨S, chain, ho⟩, h⟩
  | cons p ps ih =>
    obtain ⟨hp, hps⟩ := h
    obtain ⟨S', ⟨chain', ho'⟩, -⟩ := hp.tick_origin ho
    exact ih ho' hps

/-- A row is one of the chain of the headers. -/
theorem Origin.mem_recordsAt (h : Origin cfg S (HeadersOf chain) db) (hx : db.Holds x) :
    x ∈ recordsAt cfg chain.blocks x.position.blockNumber := by
  obtain ⟨e, he⟩ := h.sourced x hx
  have hplaced := h.placed x hx e he
  obtain ⟨-, hhash⟩ := hashAt_eq_some (h.headers _ _ hplaced.header)
  have hlogged := hplaced.logged
  rw [hhash, logsAt_take (Nat.lt_succ_self _)] at hlogged
  rw [recordOf_position hplaced.record]
  exact List.mem_filterMap.mpr ⟨e, List.mem_filter.mpr ⟨hlogged, hplaced.watched⟩, hplaced.record⟩

/-- **No stale rows.**  In a run of checked ticks, every tick that returns without an error leaves, up to
its cursor, only rows of events of its chain. -/
theorem rows_fresh (cfg : IndexerConfig) (polls : List Poll) (p : Poll)
    (h : CheckedRun cfg Db.empty (polls ++ [p])) : FreshAfter cfg polls p := by
  obtain ⟨⟨S, chain, ho⟩, hp, -⟩ := h.origin (origin_empty (G := HeadersOf p.chain))
  obtain ⟨S', -, hend⟩ := hp.tick_origin ho
  intro o db' htick herr T _ x hx _
  rw [htick] at hend
  exact (hend o rfl herr).mem_recordsAt hx

/-- A tick on a chain, one of whose calls fails. -/
def failing (chain : Chain) (k : ℕ) : Poll := ⟨chain, fun _ _ _ _ => .word 0, fun m => m == k⟩

theorem rows_fresh_replaced :
    CheckedRun (deployment 100) Db.empty [steady oldChain, steady newChain] ∧
      FreshAfter (deployment 100) [steady oldChain] (steady newChain) := by
  have hrun : CheckedRun (deployment 100) Db.empty [steady oldChain, steady newChain] := by
    refine ⟨?_, ?_, trivial⟩
    · intro _ n P hP
      cases hP
    · intro hno
      refine absurd ?_ hno
      exact ⟨3, ⟨oldChain.blocks.take 4⟩, ⟨newChain.blocks.take 4⟩, by decide +kernel, by decide +kernel,
        by decide +kernel, by decide +kernel⟩
  exact ⟨hrun, rows_fresh (deployment 100) [steady oldChain] (steady newChain) hrun⟩

/-- **A stale row survives.**  The first tick fails after it has inserted the deposit of the new chain,
and its cursor stays where it was; the second finds the old chain, nothing to check, and ends with the
cursor above the deposit. -/
theorem stale_row_survives :
    ¬ FreshAfter (deployment 100) [failing newChain 14] (steady oldChain) := by
  intro h
  have hok : (tick (steady oldChain).session (deployment 100)
      (afterTicks (deployment 100) Db.empty [failing newChain 14])).1.toOption.map
        (fun o => (o.error, o.lastIndexedBlock)) = some (none, some 3) := by decide +kernel
  have hheld : (tick (steady oldChain).session (deployment 100)
      (afterTicks (deployment 100) Db.empty [failing newChain 14])).2.Holds depositRecord := by
    decide +kernel
  unfold FreshAfter at h
  rcases htick : tick (steady oldChain).session (deployment 100)
      (afterTicks (deployment 100) Db.empty [failing newChain 14]) with ⟨e | o, db'⟩
  · rw [htick] at hok
    cases hok
  · rw [htick] at hok hheld
    obtain ⟨herr, hcursor⟩ := Prod.mk.inj (Option.some.inj hok)
    have hmem := h o db' htick herr 3 hcursor depositRecord hheld (by decide)
    exact absurd hmem (by decide +kernel)

end RobotMoney.Indexer
