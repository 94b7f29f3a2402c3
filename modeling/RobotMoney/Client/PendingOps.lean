import RobotMoney.Client.GetTimelock
import RobotMoney.Client.Honest

/-!
# The pending operations of the timelock, as the client prints them

`rmpc get-timelock` finds the operations by the logs of `CallScheduled`, and asks for the timestamp of each.  An
operation whose timestamp is not read is *taken to be none that is pending*, and nothing is recorded.  So the
list is complete, or an error says that it is not, exactly if every pending operation has a log and has its
timestamp read, or the query for the logs fails (`readTimelock_honest_iff`).
-/

namespace RobotMoney.Client.GetTimelock

open RobotMoney.Lib RobotMoney.Lib.Abi

/-! ### The timelock in the pinned block -/

/-- The delay and the timestamps of a timelock, and the logs of the chain. -/
structure TimelockState where
  minDelay : ℕ
  timestamp : (id : ℕ) → ℕ
  logs : List RawLog

namespace TimelockState

/-- An operation that is scheduled, and neither done nor cancelled. -/
def Pending (s : TimelockState) (id : ℕ) : Prop := doneTimestamp < s.timestamp id

/-- It has a log in a block up to `n`. -/
def Scheduled (s : TimelockState) (timelock : Address) (n id : ℕ) : Prop :=
  ∃ log ∈ s.logs, Matches ⟨timelock, blockTag n, [scheduledTopic]⟩ n log ∧ log.topics[1]? = some id

/-- What the list shows of an operation. -/
def entry (s : TimelockState) (id : ℕ) : PendingOp := ⟨"0x" ++ String.ofList (hexWord 64 id), s.timestamp id⟩

/-- The numbers fit the types in which they are printed, and an operation is a word. -/
structure Fits (s : TimelockState) : Prop where
  minDelay : s.minDelay < 2 ^ 64
  timestamp : ∀ id, s.timestamp id < 2 ^ 64
  word : ∀ id, s.Pending id → id < wordSize

/-- The list has the pending operations, each once, those that are ready first in front. -/
def Lists (s : TimelockState) (ops : List PendingOp) : Prop :=
  (ops.Pairwise fun a b => a.readyTimestamp ≤ b.readyTimestamp) ∧
    ∃ ids : List ℕ, ids.Nodup ∧ (∀ id, id ∈ ids ↔ s.Pending id) ∧ ops.Perm (ids.map s.entry)

theorem entry_inj {s : TimelockState} {id id' : ℕ} (hid : id < wordSize) (hid' : id' < wordSize)
    (h : s.entry id = s.entry id') : id = id' := by
  have htext : "0x" ++ String.ofList (hexWord 64 id) = "0x" ++ String.ofList (hexWord 64 id') :=
    congrArg PendingOp.operationId h
  have hchars : hexWord 64 id = hexWord 64 id' := by simpa using congrArg String.toList htext
  exact hexWord_inj hid hid' hchars

end TimelockState

/-- The answers are true, as far as there are any. -/
structure Rpc.ShowsTimelock (rpc : Rpc) (timelock : Address) (n : ℕ) (s : TimelockState) : Prop where
  minDelay : Tells (rpc.ethCall timelock (blockTag n) .getMinDelay) [s.minDelay]
  timestamp : ∀ id, Tells (rpc.ethCall timelock (blockTag n) (.getTimestamp id)) [s.timestamp id]
  logs : ∀ f, f.toBlock = blockTag n → Tells (rpc.getLogs f) (s.logs.filter fun log => Matches f n log)

/-! ### What is fetched -/

section Fetched

variable {hash : HashOrders} {rpc : Rpc} {timelock : Address} {n id : ℕ} {s : TimelockState} {tag : String}

theorem strict_word (w : ℕ) : (Fields.cons uint256 .nil).strict [w] = some (w, ()) :=
  Fields.strict_returns (a := (w, ())) (Fields.cons_lawful uint256_lawful Fields.nil_lawful) ⟨trivial, trivial⟩

/-- A word that is returned is read. -/
theorem callWord_ok {v : View} {name : String} {w : ℕ} (h : rpc.ethCall timelock tag v = .ok [w]) :
    callWord rpc timelock tag v name = .ok w := by
  unfold callWord
  rw [h]
  simp only [bind, Except.bind, strict_word]

theorem callWord_error {v : View} {name : String} {e : RmpcError} (h : rpc.ethCall timelock tag v = .error e) :
    callWord rpc timelock tag v name = .error e := by
  unfold callWord
  rw [h]
  rfl

theorem callGetMinDelay_tells (h : rpc.ShowsTimelock timelock n s) (hfits : s.Fits) :
    Tells (callGetMinDelay rpc timelock (blockTag n)) s.minDelay := by
  unfold callGetMinDelay
  rcases h.minDelay.cases with hcall | ⟨e, hcall⟩
  · rw [callWord_ok hcall]
    have hmin : saturatingToU64 s.minDelay = s.minDelay := Nat.min_eq_left (Nat.le_sub_one_of_lt hfits.minDelay)
    simp only [bind, Except.bind, hmin]
    exact tells_ok
  · rw [callWord_error hcall]
    rintro _ ⟨⟩

/-- **The operation of an id** is found when it is pending and its timestamp is read. -/
theorem pendingOp_eq_some (h : rpc.ShowsTimelock timelock n s) (hfits : s.Fits) {op : PendingOp} :
    pendingOp rpc timelock (blockTag n) id = some op ↔
      (¬ Fails (rpc.ethCall timelock (blockTag n) (.getTimestamp id)) ∧ s.Pending id) ∧ op = s.entry id := by
  rcases (h.timestamp id).cases with hcall | ⟨e, hcall⟩
  · have hts : callGetTimestamp rpc timelock (blockTag n) id = .ok (s.timestamp id) := by
      unfold callGetTimestamp
      rw [callWord_ok hcall]
      exact congrArg Except.ok (Nat.min_eq_left (Nat.le_sub_one_of_lt (hfits.timestamp id)))
    unfold pendingOp
    rw [hts, hcall]
    by_cases hpending : doneTimestamp < s.timestamp id
    · simp [TimelockState.Pending, TimelockState.entry, hpending, eq_comm]
    · simp [TimelockState.Pending, hpending]
  · have hts : callGetTimestamp rpc timelock (blockTag n) id = .error e := by
      unfold callGetTimestamp
      rw [callWord_error hcall]
      rfl
    unfold pendingOp
    rw [hts, hcall]
    simp [doneTimestamp]

/-- The ids that the logs have. -/
theorem foldl_insert (ids seen : List ℕ) (hseen : seen.Nodup) :
    (ids.foldl (fun seen id => seen.insert id) seen).Nodup ∧
      ∀ id, id ∈ ids.foldl (fun seen id => seen.insert id) seen ↔ id ∈ seen ∨ id ∈ ids := by
  induction ids generalizing seen with
  | nil => exact ⟨hseen, fun id => by simp⟩
  | cons id ids ih =>
    obtain ⟨hnodup, hmem⟩ := ih (seen.insert id) hseen.insert
    refine ⟨hnodup, fun id' => ?_⟩
    rw [List.foldl_cons, hmem, List.mem_insert_iff, List.mem_cons]
    tauto

/-- A partial function that gives nothing but the values of another. -/
theorem filterMap_eq_map_filter {α β : Type} {f : α → Option β} {g : α → β} (h : ∀ a b, f a = some b → b = g a)
    (l : List α) : l.filterMap f = (l.filter fun a => (f a).isSome).map g := by
  induction l with
  | nil => rfl
  | cons a l ih =>
    cases hfa : f a with
    | none => rw [List.filterMap_cons_none hfa, ih, List.filter_cons_of_neg (by simp [hfa])]
    | some b =>
      obtain rfl := h a b hfa
      rw [List.filterMap_cons_some hfa, ih, List.filter_cons_of_pos (by simp [hfa]), List.map_cons]

/-- The operations that are ready first come first. -/
theorem ready_mergeSort (ops : List PendingOp) :
    (ops.mergeSort fun a b => decide (a.readyTimestamp ≤ b.readyTimestamp)).Pairwise fun a b =>
      a.readyTimestamp ≤ b.readyTimestamp := by
  have hsorted : (ops.mergeSort fun a b => decide (a.readyTimestamp ≤ b.readyTimestamp)).Pairwise fun a b =>
      decide (a.readyTimestamp ≤ b.readyTimestamp) = true := by
    refine List.pairwise_mergeSort ?_ ?_ ops
    · intro a b c hab hbc
      simp only [decide_eq_true_eq] at *
      omega
    · intro a b
      simp only [Bool.or_eq_true, decide_eq_true_eq]
      omega
  exact hsorted.imp of_decide_eq_true

/-- The ids that are seen in the logs, each once. -/
def TimelockState.seen (s : TimelockState) (timelock : Address) (n : ℕ) : List ℕ :=
  ((s.logs.filter fun log => Matches ⟨timelock, blockTag n, [scheduledTopic]⟩ n log).filterMap fun log =>
    log.topics[1]?).foldl (fun seen id => seen.insert id) []

theorem TimelockState.nodup_seen : (s.seen timelock n).Nodup := (foldl_insert _ [] List.nodup_nil).1

theorem TimelockState.mem_seen : id ∈ s.seen timelock n ↔ s.Scheduled timelock n id := by
  unfold TimelockState.seen
  rw [(foldl_insert _ [] List.nodup_nil).2, or_iff_right List.not_mem_nil]
  simp only [List.mem_filterMap, List.mem_filter, decide_eq_true_eq, and_assoc]
  exact Iff.rfl

/-- **What is fetched**, when the logs are. -/
theorem fetchPendingOps_eq (hash : HashOrders) (h : rpc.ShowsTimelock timelock n s)
    (hlogs : ¬ Fails (rpc.getLogs ⟨timelock, blockTag n, [scheduledTopic]⟩)) :
    fetchPendingOps hash rpc timelock (blockTag n) =
      .ok (((hash.words.order (s.seen timelock n)).filterMap (pendingOp rpc timelock (blockTag n))).mergeSort
        fun a b => decide (a.readyTimestamp ≤ b.readyTimestamp)) := by
  unfold fetchPendingOps
  rw [(h.logs ⟨timelock, blockTag n, [scheduledTopic]⟩ rfl).cases.resolve_right hlogs]
  rfl

/-- It is made of the operations that have a log, are pending and have their timestamp read. -/
theorem fetched_perm (hash : HashOrders) (h : rpc.ShowsTimelock timelock n s) (hfits : s.Fits) :
    ∃ ids : List ℕ, (((hash.words.order (s.seen timelock n)).filterMap (pendingOp rpc timelock (blockTag n))).mergeSort
        fun a b => decide (a.readyTimestamp ≤ b.readyTimestamp)).Perm (ids.map s.entry) ∧ ids.Nodup ∧
      ∀ id, id ∈ ids ↔ s.Scheduled timelock n id ∧
        ¬ Fails (rpc.ethCall timelock (blockTag n) (.getTimestamp id)) ∧ s.Pending id := by
  have hperm := hash.words.perm (s.seen timelock n)
  refine ⟨(hash.words.order (s.seen timelock n)).filter fun id =>
    (pendingOp rpc timelock (blockTag n) id).isSome, ?_, ?_, fun id => ?_⟩
  · rw [← filterMap_eq_map_filter fun _ _ hop => ((pendingOp_eq_some h hfits).mp hop).2]
    exact List.mergeSort_perm _ _
  · exact (hperm.nodup_iff.mpr TimelockState.nodup_seen).filter _
  · rw [List.mem_filter, hperm.mem_iff, TimelockState.mem_seen]
    refine and_congr_right fun _ => ?_
    simp only [Option.isSome_iff_exists, pendingOp_eq_some h hfits, exists_and_left, exists_eq, and_true]

end Fetched

/-! ### What is printed -/

/-- An envelope of the timelock, field by field, without the holders of the roles. -/
structure HonestTimelock (out : Envelope TimelockData) (timelock : Address) (s : TimelockState) : Prop where
  address : out.Honest TimelockData.address (lowerHex timelock) ["address"]
  minDelaySecs : out.Honest TimelockData.minDelaySecs s.minDelay ["min_delay"]
  pendingOps : s.Lists out.data.pendingOps ∨ ∃ e ∈ out.errors, e.field ∈ ["pending_ops"]

/-- The query for the logs fails, or every pending operation has a log, and its timestamp is read. -/
def PendingFound (rpc : Rpc) (timelock : Address) (n : ℕ) (s : TimelockState) : Prop :=
  Fails (rpc.getLogs ⟨timelock, blockTag n, [scheduledTopic]⟩) ∨ ∀ id, s.Pending id →
    s.Scheduled timelock n id ∧ ¬ Fails (rpc.ethCall timelock (blockTag n) (.getTimestamp id))

section Printed

open PartialBuilder

variable {hash : HashOrders} {rpc : Rpc} {timelock : Address} {n : ℕ} {s : TimelockState}

/-- **The list of operations** that is fetched is the true one just where all of them are found. -/
theorem lists_iff (h : rpc.ShowsTimelock timelock n s) (hfits : s.Fits) {ops : List PendingOp}
    (hops : fetchPendingOps hash rpc timelock (blockTag n) = .ok ops)
    (hlogs : ¬ Fails (rpc.getLogs ⟨timelock, blockTag n, [scheduledTopic]⟩)) :
    s.Lists ops ↔ ∀ id, s.Pending id →
      s.Scheduled timelock n id ∧ ¬ Fails (rpc.ethCall timelock (blockTag n) (.getTimestamp id)) := by
  obtain rfl := Except.ok.inj (hops.symm.trans (fetchPendingOps_eq hash h hlogs))
  obtain ⟨found, hperm, hnodup, hmem⟩ := fetched_perm hash h hfits
  constructor
  · rintro ⟨-, ids, -, hpending, hperm'⟩ id hid
    have hentry : s.entry id ∈ found.map s.entry :=
      hperm.mem_iff.mp (hperm'.mem_iff.mpr (List.mem_map_of_mem ((hpending id).mpr hid)))
    obtain ⟨id', hid', heq⟩ := List.mem_map.mp hentry
    obtain ⟨hscheduled, hread, hid''⟩ := (hmem id').mp hid'
    obtain rfl := TimelockState.entry_inj (hfits.word id' hid'') (hfits.word id hid) heq
    exact ⟨hscheduled, hread⟩
  · intro hall
    refine ⟨ready_mergeSort _, found, hnodup, fun id => ?_, hperm⟩
    rw [hmem]
    exact ⟨fun hid => hid.2.2, fun hid => ⟨(hall id hid).1, (hall id hid).2, hid⟩⟩

/-- A role of which the members are not read is not shown elsewhere. -/
theorem honest_readMembers {β : Type} {view : TimelockData → β} {a : β} {names : List String} {tag field : String}
    {role : Result ℕ} {fill : List Address → TimelockData → TimelockData} {b : PartialBuilder TimelockData}
    (h : b.Honest view a names) (hkeeps : ∀ v d, view (fill v d) = view d := by exact fun _ _ => rfl) :
    (readMembers hash rpc timelock tag field role fill b).Honest view a names := by
  unfold readMembers
  cases role with
  | ok role => exact h.read hkeeps
  | error e => exact h

theorem named_readMembers {names : List String} {tag field : String} {role : Result ℕ}
    {fill : List Address → TimelockData → TimelockData} {b : PartialBuilder TimelockData} (hfield : field ∉ names) :
    (readMembers hash rpc timelock tag field role fill b).Named names ↔ b.Named names := by
  unfold readMembers
  cases role with
  | ok role => simp [hfield]
  | error e => exact Iff.rfl

theorem readMembers_blockNumber {tag field : String} {role : Result ℕ}
    {fill : List Address → TimelockData → TimelockData} {b : PartialBuilder TimelockData} :
    (readMembers hash rpc timelock tag field role fill b).blockNumber = b.blockNumber := by
  unfold readMembers
  cases role with
  | ok role => exact read_blockNumber
  | error e => rfl

/-- The read of the operations, after reads of other fields. -/
theorem pendingOps_honest_iff (h : rpc.ShowsTimelock timelock n s) (hfits : s.Fits) {b : PartialBuilder TimelockData}
    (hnamed : ¬ b.Named ["pending_ops"]) {b' : PartialBuilder TimelockData}
    (hb : b' = b.read "pending_ops" (fetchPendingOps hash rpc timelock (blockTag n)) TimelockData.setPendingOps) :
    (s.Lists b'.data.pendingOps ∨ b'.Named ["pending_ops"]) ↔ PendingFound rpc timelock n s := by
  subst hb
  rw [named_read, or_iff_right hnamed]
  unfold PendingFound
  by_cases hlogs : Fails (rpc.getLogs ⟨timelock, blockTag n, [scheduledTopic]⟩)
  · -- the list is named
    have hfails : Fails (fetchPendingOps hash rpc timelock (blockTag n)) := by
      obtain ⟨e, he⟩ := hlogs
      unfold fetchPendingOps
      rw [he]
      exact fails_error
    exact iff_of_true (.inr ⟨List.mem_singleton_self _, hfails⟩) (.inl hlogs)
  · have hok := fetchPendingOps_eq hash h hlogs
    have hread : ¬ Fails (fetchPendingOps hash rpc timelock (blockTag n)) := by
      rw [hok]
      exact not_fails_ok
    rw [or_iff_left fun hnamed => hread hnamed.2, or_iff_right hlogs, PartialBuilder.read_ok hok]
    exact lists_iff h hfits hok hlogs

/-- **The timelock.**  What is printed is honest just where the pending operations are found. -/
theorem readTimelock_honest_iff {out : Envelope TimelockData} (h : readTimelock hash rpc timelock = .ok out)
    (hshows : rpc.ShowsTimelock timelock out.blockNumber s) (hfits : s.Fits) :
    HonestTimelock out timelock s ↔ PendingFound rpc timelock out.blockNumber s := by
  simp only [readTimelock, bind_eq_ok, pure_eq_ok] at h
  obtain ⟨chainId, -, n, -, rfl⟩ := h
  simp only [finish_blockNumber, read_blockNumber, readMembers_blockNumber, new_blockNumber] at hshows ⊢
  refine Iff.trans ⟨fun hhonest => hhonest.pendingOps, fun hpending => ?_⟩
    (pendingOps_honest_iff hshows hfits ?_ rfl)
  · exact
      { address := (honest_readMembers (honest_readMembers (Honest.read (.inl rfl)).read.read)).read
        minDelaySecs := (honest_readMembers (honest_readMembers
          (honest_read ((callGetMinDelay_tells hshows hfits).mapError _)).read.read)).read
        pendingOps := hpending }
  · rw [named_readMembers (by decide), named_readMembers (by decide), named_read, named_read, named_read]
    simp

end Printed

end RobotMoney.Client.GetTimelock
