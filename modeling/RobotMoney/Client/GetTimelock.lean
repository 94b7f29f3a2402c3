import RobotMoney.Client.GetGovernance
import RobotMoney.Lib.RoleEvents

/-!
# The timelock, as the client prints it

`rmpc get-timelock` reads the delay, the holders of two roles and the pending operations of a
`TimelockController`, all in one block.  The holders it makes up from two queries: all accounts that were ever
granted the role, without all those that ever lost it.  So nobody is named who does not hold the role
(`fetchRoleMembers_sound`), and everybody is who holds it and never lost it; an account that lost the role and
got it again is left out (`roleMembers_iff`).
-/

namespace RobotMoney.Client.GetTimelock

open RobotMoney.Lib RobotMoney.Lib.Abi
open GetAgent (exitStartupFail)

/-- The words of a log, and where it is. -/
structure RawLog where
  address : Address
  topics : List ℕ
  blockNumber : ℕ
  deriving DecidableEq

/-- The filter of `eth_getLogs` from the first block on. -/
structure Filter where
  address : Address
  toBlock : String
  topics : List ℕ

inductive View where
  | getMinDelay
  | proposerRole
  | executorRole
  | getTimestamp (id : ℕ)
  deriving DecidableEq

/-- What the node answers. -/
structure Rpc where
  chainId : Result ℕ
  blockNumber : Result ℕ
  ethCall : (target : Address) → (blockTag : String) → View → Result (List ℕ)
  getLogs : Filter → Result (List RawLog)
  /-- The text of the error when return data is not read. -/
  abiError : List ℕ → String

/-- The order in which a `HashSet` gives its elements. -/
structure HashOrder (α : Type) where
  order : List α → List α
  perm : ∀ xs, (order xs).Perm xs

structure HashOrders where
  addresses : HashOrder Address
  words : HashOrder ℕ

structure PendingOp where
  operationId : String
  readyTimestamp : ℕ

/-- `TimelockData`, with its defaults. -/
structure TimelockData where
  address : String := ""
  minDelaySecs : ℕ := 0
  proposers : List String := []
  executors : List String := []
  pendingOps : List PendingOp := []

namespace TimelockData

def setMinDelaySecs (n : ℕ) (d : TimelockData) : TimelockData := { d with minDelaySecs := n }

def setProposers (members : List Address) (d : TimelockData) : TimelockData :=
  { d with proposers := members.map lowerHex }

def setExecutors (members : List Address) (d : TimelockData) : TimelockData :=
  { d with executors := members.map lowerHex }

def setPendingOps (ops : List PendingOp) (d : TimelockData) : TimelockData := { d with pendingOps := ops }

end TimelockData

/-- `DONE_TIMESTAMP` -/
def doneTimestamp : ℕ := 1

/-- `keccak256("RoleGranted(bytes32,address,address)")` -/
def grantedTopic : ℕ := 0x2f8788117e7eff1d82e926ec794901d17c78024a50270940304540a733656f0d

/-- `keccak256("RoleRevoked(bytes32,address,address)")` -/
def revokedTopic : ℕ := 0xf6391f5c32d9c69d2a47ea670b442974b53935d1edc7fd64eb21e047a839171b

/-- `keccak256("CallScheduled(bytes32,uint256,address,uint256,bytes,bytes32,uint256)")` -/
def scheduledTopic : ℕ := 0x4cf4410cc57040e44862ef0f45f3dd5a5e02db8eb8add648d4b0e236f1d07dca

/-- A call of a view that returns one word. -/
def callWord (rpc : Rpc) (timelock : Address) (tag : String) (v : View) (name : String) : Result ℕ := do
  let out ← rpc.ethCall timelock tag v
  match (Fields.cons uint256 .nil).strict out with
  | some r => .ok r.1
  | none => .error (.errRpcDecode (name ++ " abi decode: " ++ rpc.abiError out))

/-- `call_get_min_delay` -/
def callGetMinDelay (rpc : Rpc) (timelock : Address) (tag : String) : Result ℕ := do
  let delay ← callWord rpc timelock tag .getMinDelay "getMinDelay"
  pure (saturatingToU64 delay)

/-- `call_proposer_role` -/
def callProposerRole (rpc : Rpc) (timelock : Address) (tag : String) : Result ℕ :=
  callWord rpc timelock tag .proposerRole "PROPOSER_ROLE"

/-- `call_executor_role` -/
def callExecutorRole (rpc : Rpc) (timelock : Address) (tag : String) : Result ℕ :=
  callWord rpc timelock tag .executorRole "EXECUTOR_ROLE"

/-- `call_get_timestamp` -/
def callGetTimestamp (rpc : Rpc) (timelock : Address) (tag : String) (id : ℕ) : Result ℕ := do
  let ts ← callWord rpc timelock tag (.getTimestamp id) "getTimestamp"
  pure (saturatingToU64 ts)

/-- The last twenty bytes of a word. -/
def addressOfWord (w : ℕ) : Address := Fin.ofNat _ w

/-- The loop over the granted logs. -/
def insertGranted (members : List Address) (log : RawLog) : List Address :=
  match log.topics[2]? with
  | some topic => members.insert (addressOfWord topic)
  | none => members

/-- The loop over the revoked logs. -/
def removeRevoked (members : List Address) (log : RawLog) : List Address :=
  match log.topics[2]? with
  | some topic => members.erase (addressOfWord topic)
  | none => members

/-- `fetch_role_members` -/
def fetchRoleMembers (hash : HashOrders) (rpc : Rpc) (timelock : Address) (role : ℕ) (tag : String) :
    Except String (List Address) := do
  let grantedLogs ← (rpc.getLogs ⟨timelock, tag, [grantedTopic, role]⟩).mapError fun e =>
    "eth_getLogs(RoleGranted) failed: " ++ e.display
  let revokedLogs ← (rpc.getLogs ⟨timelock, tag, [revokedTopic, role]⟩).mapError fun e =>
    "eth_getLogs(RoleRevoked) failed: " ++ e.display
  let members := grantedLogs.foldl insertGranted []
  let members := revokedLogs.foldl removeRevoked members
  pure ((hash.addresses.order members).mergeSort fun a b => decide (Fin.val a ≤ Fin.val b))

/-- The operation of an id, if it is pending. -/
def pendingOp (rpc : Rpc) (timelock : Address) (tag : String) (id : ℕ) : Option PendingOp :=
  let ts :=
    match callGetTimestamp rpc timelock tag id with
    | .ok ts => ts
    | .error _ => 0
  if doneTimestamp < ts then some ⟨"0x" ++ String.ofList (hexWord 64 id), ts⟩ else none

/-- `fetch_pending_ops` -/
def fetchPendingOps (hash : HashOrders) (rpc : Rpc) (timelock : Address) (tag : String) :
    Except String (List PendingOp) := do
  let logs ← (rpc.getLogs ⟨timelock, tag, [scheduledTopic]⟩).mapError fun e =>
    "eth_getLogs(CallScheduled) failed: " ++ e.display
  let seen := (logs.filterMap fun log => log.topics[1]?).foldl (fun seen id => seen.insert id) []
  let pending := (hash.words.order seen).filterMap (pendingOp rpc timelock tag)
  pure (pending.mergeSort fun a b => decide (a.readyTimestamp ≤ b.readyTimestamp))

/-- The holders of a role whose hash was read. -/
def readMembers (hash : HashOrders) (rpc : Rpc) (timelock : Address) (tag field : String) (role : Result ℕ)
    (fill : List Address → TimelockData → TimelockData) (b : PartialBuilder TimelockData) :
    PartialBuilder TimelockData :=
  match role with
  | .ok role => b.read field (fetchRoleMembers hash rpc timelock role tag) fill
  | .error _ => b

/-- `read_timelock` -/
def readTimelock (hash : HashOrders) (rpc : Rpc) (timelock : Address) : Result (Envelope TimelockData) := do
  let chainId ← rpc.chainId
  let blockNumber ← rpc.blockNumber
  let tag := blockTag blockNumber
  let b := PartialBuilder.new chainId blockNumber { address := lowerHex timelock }
  let b := b.read "min_delay" ((callGetMinDelay rpc timelock tag).mapError RmpcError.display)
    TimelockData.setMinDelaySecs
  let proposerRole := callProposerRole rpc timelock tag
  let b := b.read "proposer_role" (proposerRole.mapError RmpcError.display) fun _ d => d
  let executorRole := callExecutorRole rpc timelock tag
  let b := b.read "executor_role" (executorRole.mapError RmpcError.display) fun _ d => d
  let b := readMembers hash rpc timelock tag "proposers" proposerRole TimelockData.setProposers b
  let b := readMembers hash rpc timelock tag "executors" executorRole TimelockData.setExecutors b
  let b := b.read "pending_ops" (fetchPendingOps hash rpc timelock tag) TimelockData.setPendingOps
  pure b.finish

/-- `run`, with the configuration loaded: the envelope that is printed, or the exit code. -/
def run (c : Crates) (hash : HashOrders) (rpc : Rpc) (cfg : Config) : Except ℕ (Envelope TimelockData) := do
  let timelockAddr ← configured c cfg.timelockAddress
  (readTimelock hash rpc timelockAddr).mapError fun _ => exitStartupFail

/-! ### The set of members -/

/-- The account that a log is about. -/
def accountIn (topics : List ℕ) : Option Address := topics[2]?.map addressOfWord

section Members

variable {members : List Address} {logs : List RawLog} {a : Address}

theorem insertGranted_eq (log : RawLog) :
    insertGranted members log = (accountIn log.topics).elim members members.insert := by
  unfold insertGranted accountIn
  cases log.topics[2]? <;> rfl

theorem removeRevoked_eq (log : RawLog) :
    removeRevoked members log = (accountIn log.topics).elim members members.erase := by
  unfold removeRevoked accountIn
  cases log.topics[2]? <;> rfl

/-- Some of the logs is about the account. -/
def About (logs : List RawLog) (a : Address) : Prop := ∃ log ∈ logs, accountIn log.topics = some a

theorem about_cons {log : RawLog} : About (log :: logs) a ↔ accountIn log.topics = some a ∨ About logs a := by
  unfold About
  rw [List.exists_mem_cons_iff]

theorem foldl_insertGranted (hnodup : members.Nodup) :
    (logs.foldl insertGranted members).Nodup ∧
      ∀ a, a ∈ logs.foldl insertGranted members ↔ a ∈ members ∨ About logs a := by
  induction logs generalizing members with
  | nil => exact ⟨hnodup, fun a => by simp [About]⟩
  | cons log logs ih =>
    rw [List.foldl_cons, insertGranted_eq]
    cases haccount : accountIn log.topics with
    | none =>
      refine ⟨(ih hnodup).1, fun a => ?_⟩
      rw [Option.elim_none, (ih hnodup).2, about_cons, haccount]
      simp
    | some b =>
      have hnodup' : (members.insert b).Nodup := hnodup.insert
      refine ⟨(ih hnodup').1, fun a => ?_⟩
      rw [Option.elim_some, (ih hnodup').2, List.mem_insert_iff, about_cons, haccount, Option.some.injEq,
        eq_comm (a := a)]
      tauto

theorem foldl_removeRevoked (hnodup : members.Nodup) :
    (logs.foldl removeRevoked members).Nodup ∧
      ∀ a, a ∈ logs.foldl removeRevoked members ↔ a ∈ members ∧ ¬ About logs a := by
  induction logs generalizing members with
  | nil => exact ⟨hnodup, fun a => by simp [About]⟩
  | cons log logs ih =>
    rw [List.foldl_cons, removeRevoked_eq]
    cases haccount : accountIn log.topics with
    | none =>
      refine ⟨(ih hnodup).1, fun a => ?_⟩
      rw [Option.elim_none, (ih hnodup).2, about_cons, haccount]
      simp
    | some b =>
      have hnodup' : (members.erase b).Nodup := hnodup.erase b
      refine ⟨(ih hnodup').1, fun a => ?_⟩
      rw [Option.elim_some, (ih hnodup').2, hnodup.mem_erase_iff, about_cons, haccount, Option.some.injEq,
        ne_eq, eq_comm (a := a)]
      tauto

/-- A list in ascending order, without repetitions. -/
def Ascending (members : List Address) : Prop := members.Pairwise fun a b => Fin.val a < Fin.val b

theorem ascending_mergeSort (hnodup : members.Nodup) :
    Ascending (members.mergeSort fun a b => decide (Fin.val a ≤ Fin.val b)) := by
  have hsorted : (members.mergeSort fun a b => decide (Fin.val a ≤ Fin.val b)).Pairwise fun a b =>
      decide (Fin.val a ≤ Fin.val b) = true := by
    refine List.pairwise_mergeSort ?_ ?_ members
    · intro a b c hab hbc
      simp only [decide_eq_true_eq] at *
      omega
    · intro a b
      simp only [Bool.or_eq_true, decide_eq_true_eq]
      omega
  have hdistinct : (members.mergeSort fun a b => decide (Fin.val a ≤ Fin.val b)).Nodup :=
    (List.mergeSort_perm members _).nodup_iff.mpr hnodup
  refine (hsorted.and hdistinct).imp ?_
  rintro a b ⟨hle, hne⟩
  exact lt_of_le_of_ne (of_decide_eq_true hle) fun heq => hne (Fin.ext heq)

/-- What is made of the two answers. -/
theorem members_spec (hash : HashOrders) (granted revoked : List RawLog) :
    Ascending ((hash.addresses.order (revoked.foldl removeRevoked (granted.foldl insertGranted []))).mergeSort
        fun a b => decide (Fin.val a ≤ Fin.val b)) ∧
      ∀ a, a ∈ (hash.addresses.order (revoked.foldl removeRevoked (granted.foldl insertGranted []))).mergeSort
          (fun a b => decide (Fin.val a ≤ Fin.val b)) ↔ About granted a ∧ ¬ About revoked a := by
  have hnil : ([] : List Address).Nodup := List.nodup_nil
  obtain ⟨hnodup, hgranted⟩ : (granted.foldl insertGranted []).Nodup ∧ _ := foldl_insertGranted hnil
  obtain ⟨hnodup', hrevoked⟩ : (revoked.foldl removeRevoked (granted.foldl insertGranted [])).Nodup ∧ _ :=
    foldl_removeRevoked hnodup
  have hperm := hash.addresses.perm (revoked.foldl removeRevoked (granted.foldl insertGranted []))
  refine ⟨ascending_mergeSort (hperm.nodup_iff.mpr hnodup'), fun a => ?_⟩
  rw [List.mem_mergeSort, hperm.mem_iff, hrevoked, hgranted]
  simp

end Members

/-! ### The logs of the timelock -/

/-- The topics of an event. -/
def topicsOf : RoleEvent ℕ Address → List ℕ
  | .granted role account sender => [grantedTopic, role, Fin.val account, Fin.val sender]
  | .revoked role account sender => [revokedTopic, role, Fin.val account, Fin.val sender]

theorem addressOfWord_val (a : Address) : addressOfWord (Fin.val a) = a :=
  Fin.ext (Nat.mod_eq_of_lt a.isLt)

/-- The log is one that the filter asks for, up to the block `n`. -/
def Matches (f : Filter) (n : ℕ) (log : RawLog) : Prop :=
  log.blockNumber ≤ n ∧ log.address = f.address ∧ f.topics <+: log.topics

instance (f : Filter) (n : ℕ) (log : RawLog) : Decidable (Matches f n log) := inferInstanceAs (Decidable (_ ∧ _))

/-- The node is asked in the block `n`, and returns all logs that match, in the order of the chain. -/
structure Serves (rpc : Rpc) (chain : List RawLog) (n : ℕ) : Prop where
  blockNumber : rpc.blockNumber = .ok n
  logs : ∀ f, f.toBlock = blockTag n → rpc.getLogs f = .ok (chain.filter fun log => Matches f n log)

/-- The topics are those of an event of roles. -/
def OfRoles (topics : List ℕ) : Prop := topics.head? = some grantedTopic ∨ topics.head? = some revokedTopic

instance (topics : List ℕ) : Decidable (OfRoles topics) := inferInstanceAs (Decidable (_ ∨ _))

/-- The chain has, up to the block `n`, the events of the timelock's roles, in their order. -/
def Logged (timelock : Address) (chain : List RawLog) (n : ℕ) (events : List (RoleEvent ℕ Address)) : Prop :=
  ((chain.filter fun log => log.blockNumber ≤ n ∧ log.address = timelock).map RawLog.topics).filter
    (fun topics => OfRoles topics) = events.map topicsOf

section Logs

variable {timelock a : Address} {chain : List RawLog} {n role : ℕ} {events : List (RoleEvent ℕ Address)} {tag : String}

/-- The accounts that a query for one kind of event finds are those of the events. -/
theorem Logged.about (h : Logged timelock chain n events) {topic : ℕ}
    (htopic : topic = grantedTopic ∨ topic = revokedTopic) :
    About (chain.filter fun log => Matches ⟨timelock, tag, [topic, role]⟩ n log) a ↔
      ∃ e ∈ events, [topic, role] <+: topicsOf e ∧ accountIn (topicsOf e) = some a := by
  have hmem : ∀ topics, [topic, role] <+: topics →
      ((∃ log ∈ chain.filter fun log => Matches ⟨timelock, tag, [topic, role]⟩ n log, log.topics = topics) ↔
        topics ∈ events.map topicsOf) := by
    intro topics hpre
    have hroles : OfRoles topics := by
      obtain ⟨rest, rfl⟩ := hpre
      rcases htopic with rfl | rfl
      · exact .inl rfl
      · exact .inr rfl
    rw [← h, List.mem_filter, List.mem_map]
    simp only [decide_eq_true_eq, and_iff_left hroles, List.mem_filter]
    refine exists_congr fun log => and_congr_left ?_
    rintro rfl
    unfold Matches
    tauto
  constructor
  · rintro ⟨log, hlog, haccount⟩
    have hpre : [topic, role] <+: log.topics := (of_decide_eq_true (List.mem_filter.mp hlog).2).2.2
    obtain ⟨e, he, htopics⟩ := List.mem_map.mp ((hmem log.topics hpre).mp ⟨log, hlog, rfl⟩)
    exact ⟨e, he, htopics ▸ hpre, htopics ▸ haccount⟩
  · rintro ⟨e, he, hpre, haccount⟩
    obtain ⟨log, hlog, htopics⟩ := (hmem (topicsOf e) hpre).mpr (List.mem_map_of_mem he)
    exact ⟨log, hlog, htopics ▸ haccount⟩

theorem topicsOf_granted {e : RoleEvent ℕ Address} :
    [grantedTopic, role] <+: topicsOf e ∧ accountIn (topicsOf e) = some a ↔ ∃ sender, e = .granted role a sender := by
  constructor
  · rintro ⟨hpre, haccount⟩
    cases e with
    | granted r b sender =>
      obtain ⟨-, hpre⟩ := List.cons_prefix_cons.mp hpre
      obtain ⟨rfl, -⟩ := List.cons_prefix_cons.mp hpre
      obtain rfl : b = a := (addressOfWord_val b).symm.trans (Option.some.inj haccount)
      exact ⟨sender, rfl⟩
    | revoked r b sender =>
      have htopic : grantedTopic = revokedTopic := (List.cons_prefix_cons.mp hpre).1
      exact absurd htopic (by decide)
  · rintro ⟨sender, rfl⟩
    exact ⟨⟨_, rfl⟩, congrArg some (addressOfWord_val a)⟩

theorem topicsOf_revoked {e : RoleEvent ℕ Address} :
    [revokedTopic, role] <+: topicsOf e ∧ accountIn (topicsOf e) = some a ↔ ∃ sender, e = .revoked role a sender := by
  constructor
  · rintro ⟨hpre, haccount⟩
    cases e with
    | revoked r b sender =>
      obtain ⟨-, hpre⟩ := List.cons_prefix_cons.mp hpre
      obtain ⟨rfl, -⟩ := List.cons_prefix_cons.mp hpre
      obtain rfl : b = a := (addressOfWord_val b).symm.trans (Option.some.inj haccount)
      exact ⟨sender, rfl⟩
    | granted r b sender =>
      have htopic : revokedTopic = grantedTopic := (List.cons_prefix_cons.mp hpre).1
      exact absurd htopic (by decide)
  · rintro ⟨sender, rfl⟩
    exact ⟨⟨_, rfl⟩, congrArg some (addressOfWord_val a)⟩

theorem Logged.about_granted (h : Logged timelock chain n events) :
    About (chain.filter fun log => Matches ⟨timelock, tag, [grantedTopic, role]⟩ n log) a ↔
      Roles.GrantedIn events role a := by
  simp only [h.about (.inl rfl), topicsOf_granted, Roles.GrantedIn]
  constructor
  · rintro ⟨_, he, sender, rfl⟩
    exact ⟨sender, he⟩
  · rintro ⟨sender, he⟩
    exact ⟨_, he, sender, rfl⟩

theorem Logged.about_revoked (h : Logged timelock chain n events) :
    About (chain.filter fun log => Matches ⟨timelock, tag, [revokedTopic, role]⟩ n log) a ↔
      Roles.RevokedIn events role a := by
  simp only [h.about (.inr rfl), topicsOf_revoked, Roles.RevokedIn]
  constructor
  · rintro ⟨_, he, sender, rfl⟩
    exact ⟨sender, he⟩
  · rintro ⟨sender, he⟩
    exact ⟨_, he, sender, rfl⟩

/-- **What is returned**: the accounts that were ever granted the role and never lost it. -/
theorem fetchRoleMembers_eq (hash : HashOrders) {rpc : Rpc} (hserves : Serves rpc chain n)
    (hlogged : Logged timelock chain n events) (role : ℕ) :
    ∃ members, fetchRoleMembers hash rpc timelock role (blockTag n) = .ok members ∧ Ascending members ∧
      ∀ a, a ∈ members ↔ Roles.GrantedIn events role a ∧ ¬ Roles.RevokedIn events role a := by
  obtain ⟨hascending, hmem⟩ := members_spec hash
    (chain.filter fun log => Matches ⟨timelock, blockTag n, [grantedTopic, role]⟩ n log)
    (chain.filter fun log => Matches ⟨timelock, blockTag n, [revokedTopic, role]⟩ n log)
  refine ⟨_, ?_, hascending, fun a => ?_⟩
  · unfold fetchRoleMembers
    rw [hserves.logs ⟨timelock, blockTag n, [grantedTopic, role]⟩ rfl,
      hserves.logs ⟨timelock, blockTag n, [revokedTopic, role]⟩ rfl]
    rfl
  · rw [hmem, hlogged.about_granted, hlogged.about_revoked]

end Logs

/-! ### Runs -/

section Runs

variable {admin : ℕ → ℕ} {deployer timelock : Address} {grants : List (ℕ × Address)}
  {calls : List (Address × RoleCall ℕ Address)} {hash : HashOrders} {rpc : Rpc} {chain : List RawLog} {n role : ℕ}

/-- The roles of a timelock after its constructor and some calls. -/
def rolesAfter (admin : ℕ → ℕ) (deployer : Address) (grants : List (ℕ × Address))
    (calls : List (Address × RoleCall ℕ Address)) : Roles ℕ Address :=
  Lib.run (Roles.exec admin) (Roles.construct deployer grants (fun _ _ => false, [])).1 calls

/-- Their events. -/
def roleEvents (admin : ℕ → ℕ) (deployer : Address) (grants : List (ℕ × Address))
    (calls : List (Address × RoleCall ℕ Address)) : List (RoleEvent ℕ Address) :=
  Roles.eventsIn (Roles.construct deployer grants (fun _ _ => false, [])).2
    (history (Roles.exec admin) (Roles.construct deployer grants (fun _ _ => false, [])).1 calls)

theorem rolesAfter_tracks :
    (rolesAfter admin deployer grants calls).Tracks (roleEvents admin deployer grants calls) :=
  Roles.run_tracks (Roles.Tracks.nil.construct deployer grants (x := (fun _ _ => false, []))) calls

/-- The list has the accounts that hold the role, each once, in ascending order. -/
def Lists (members : List Address) (t : Roles ℕ Address) (role : ℕ) : Prop :=
  Ascending members ∧ ∀ a, a ∈ members ↔ t role a = true

/-- What is fetched is this list. -/
def NamesHolders (hash : HashOrders) (rpc : Rpc) (timelock : Address) (n : ℕ) (t : Roles ℕ Address) (role : ℕ) :
    Prop :=
  ∃ members, fetchRoleMembers hash rpc timelock role (blockTag n) = .ok members ∧ Lists members t role

/-- Nobody is named who does not hold the role. -/
theorem fetchRoleMembers_sound (hserves : Serves rpc chain n)
    (hlogged : Logged timelock chain n (roleEvents admin deployer grants calls)) {members : List Address}
    (h : fetchRoleMembers hash rpc timelock role (blockTag n) = .ok members) :
    ∀ a ∈ members, rolesAfter admin deployer grants calls role a = true := by
  obtain ⟨members', h', -, hmem⟩ := fetchRoleMembers_eq hash hserves hlogged role
  obtain rfl := Except.ok.inj (h.symm.trans h')
  intro a ha
  obtain ⟨hgranted, hrevoked⟩ := (hmem a).mp ha
  exact rolesAfter_tracks.holds hgranted hrevoked

/-- **The holders of a role.**  The accounts that are returned are those that hold the role in the pinned
block, each once, in ascending order, exactly if none of these has lost the role before. -/
theorem roleMembers_iff (hserves : Serves rpc chain n)
    (hlogged : Logged timelock chain n (roleEvents admin deployer grants calls)) :
    NamesHolders hash rpc timelock n (rolesAfter admin deployer grants calls) role ↔
      ∀ a, rolesAfter admin deployer grants calls role a = true →
        ¬ Roles.RevokedIn (roleEvents admin deployer grants calls) role a := by
  obtain ⟨members, h, hascending, hmem⟩ := fetchRoleMembers_eq hash hserves hlogged role
  constructor
  · rintro ⟨members', h', -, hlists⟩ a ha
    obtain rfl := Except.ok.inj (h.symm.trans h')
    exact ((hmem a).mp ((hlists a).mpr ha)).2
  · intro hnone
    refine ⟨members, h, hascending, fun a => ?_⟩
    rw [hmem]
    constructor
    · rintro ⟨hgranted, hrevoked⟩
      exact rolesAfter_tracks.holds hgranted hrevoked
    · intro ha
      exact ⟨rolesAfter_tracks.grantedIn ha, hnone a ha⟩

section Envelope

variable {tag field : String} {x : Result ℕ} {fill : List Address → TimelockData → TimelockData}
  {b : PartialBuilder TimelockData}

theorem readMembers_errors_nil (h : (readMembers hash rpc timelock tag field x fill b).errors = []) :
    b.errors = [] := by
  unfold readMembers at h
  cases x with
  | ok role => exact (PartialBuilder.read_errors_eq_nil.mp h).1
  | error e => exact h

/-- The holders of a role whose hash was read, where no error is recorded. -/
theorem readMembers_ok (hx : x = .ok role) (h : (readMembers hash rpc timelock tag field x fill b).errors = []) :
    ∃ members, fetchRoleMembers hash rpc timelock role tag = .ok members ∧
      readMembers hash rpc timelock tag field x fill b = b.dataMut (fill members) := by
  subst hx
  obtain ⟨-, members, hmembers⟩ := PartialBuilder.read_errors_eq_nil.mp h
  exact ⟨members, hmembers, PartialBuilder.read_ok hmembers⟩

end Envelope

/-- An envelope that is not partial has the proposers and the executors that are fetched. -/
theorem readTimelock_complete {out : Envelope TimelockData} (hn : rpc.blockNumber = .ok n)
    (hread : readTimelock hash rpc timelock = .ok out) (hcomplete : out.isPartial = false) :
    ∃ proposerRole executorRole proposers executors,
      callProposerRole rpc timelock (blockTag n) = .ok proposerRole ∧
      callExecutorRole rpc timelock (blockTag n) = .ok executorRole ∧
      fetchRoleMembers hash rpc timelock proposerRole (blockTag n) = .ok proposers ∧
      fetchRoleMembers hash rpc timelock executorRole (blockTag n) = .ok executors ∧
      out.data.proposers = proposers.map lowerHex ∧ out.data.executors = executors.map lowerHex := by
  simp only [readTimelock, hn, bind_eq_ok, pure_eq_ok] at hread
  obtain ⟨chainId, -, m, hm, rfl⟩ := hread
  obtain rfl := Except.ok.inj hm
  have hexecutors := (PartialBuilder.read_errors_eq_nil.mp (PartialBuilder.finish_isPartial.mp hcomplete)).1
  have hproposers := readMembers_errors_nil hexecutors
  obtain ⟨hroles, executorRole, hexecutor⟩ :=
    PartialBuilder.read_errors_eq_nil.mp (readMembers_errors_nil hproposers)
  obtain ⟨-, proposerRole, hproposer⟩ := PartialBuilder.read_errors_eq_nil.mp hroles
  have hexecutor := GetAgent.mapError_eq_ok.mp hexecutor
  have hproposer := GetAgent.mapError_eq_ok.mp hproposer
  obtain ⟨executors, hfetched, heq⟩ := readMembers_ok hexecutor hexecutors
  obtain ⟨proposers, hfetched', heq'⟩ := readMembers_ok hproposer hproposers
  refine ⟨proposerRole, executorRole, proposers, executors, hproposer, hexecutor, hfetched', hfetched, ?_, ?_⟩
  · refine (PartialBuilder.read_data_of_keeps TimelockData.proposers ?_).trans ?_
    · exact fun _ _ => rfl
    rw [heq, heq']
    rfl
  · refine (PartialBuilder.read_data_of_keeps TimelockData.executors ?_).trans ?_
    · exact fun _ _ => rfl
    rw [heq]
    rfl

end Runs

/-! ### A proposer that is revoked, and one that is granted again -/

/-- `keccak256("PROPOSER_ROLE")` -/
def proposerRole : ℕ := 0xb09aa5aeb3702cfd50b6b62bc4532604938f21248a27a1d5ca736082b6819cc1

/-- The roles that the constructor gives: the admin `1`, and the proposers `5` and `6`. -/
def initialGrants : List (ℕ × Address) := [(0, 1), (proposerRole, 5), (proposerRole, 6)]

/-- The logs of events, all in the block `8`. -/
def logsOf (events : List (RoleEvent ℕ Address)) : List RawLog := events.map fun e => ⟨9, topicsOf e, 8⟩

/-- A node with these logs, asked in the block `10`. -/
def nodeOf (chain : List RawLog) : Rpc where
  chainId := .ok 31337
  blockNumber := .ok 10
  ethCall _ _ _ := .error .errGatewayPaused
  getLogs f := .ok (chain.filter fun log => Matches f 10 log)
  abiError _ := ""

theorem serves_nodeOf (chain : List RawLog) : Serves (nodeOf chain) chain 10 := ⟨rfl, fun _ _ => rfl⟩

/-- Every set gives its elements as they were inserted. -/
def asInserted : HashOrders := ⟨⟨id, fun _ => List.Perm.refl _⟩, ⟨id, fun _ => List.Perm.refl _⟩⟩

/-- The admin replaces the proposer `6` by `7`. -/
def replaced : List (Address × RoleCall ℕ Address) :=
  [(1, .revokeRole proposerRole 6), (1, .grantRole proposerRole 7)]

theorem logged_logsOf (events : List (RoleEvent ℕ Address)) : Logged 9 (logsOf events) 10 events := by
  have hhere : (logsOf events).filter (fun log => log.blockNumber ≤ 10 ∧ log.address = 9) = logsOf events := by
    refine List.filter_eq_self.mpr fun log hlog => ?_
    obtain ⟨e, -, rfl⟩ := List.mem_map.mp hlog
    exact decide_eq_true ⟨show 8 ≤ 10 by decide, rfl⟩
  have htopics : (logsOf events).map RawLog.topics = events.map topicsOf := by
    unfold logsOf
    rw [List.map_map]
    rfl
  unfold Logged
  rw [hhere, htopics, List.filter_eq_self]
  intro topics hmem
  obtain ⟨e, -, rfl⟩ := List.mem_map.mp hmem
  cases e with
  | granted => exact decide_eq_true (.inl rfl)
  | revoked => exact decide_eq_true (.inr rfl)

theorem roleMembers_iff_replaced :
    NamesHolders asInserted (nodeOf (logsOf (roleEvents (fun _ => 0) 1 initialGrants replaced))) 9 10
      (rolesAfter (fun _ => 0) 1 initialGrants replaced) proposerRole := by
  have hevents : roleEvents (fun _ => 0) 1 initialGrants replaced =
      [.granted 0 1 1, .granted proposerRole 5 1, .granted proposerRole 6 1, .revoked proposerRole 6 1,
       .granted proposerRole 7 1] := by decide
  have hlost : rolesAfter (fun _ => 0) 1 initialGrants replaced proposerRole 6 = false := by decide
  refine (roleMembers_iff (serves_nodeOf _) (logged_logsOf _)).mpr ?_
  rintro a ha ⟨sender, hmem⟩
  rw [hevents] at hmem
  simp only [List.mem_cons, reduceCtorEq, RoleEvent.revoked.injEq, true_and, false_or, or_false,
    List.not_mem_nil] at hmem
  rw [hmem.1, hlost] at ha
  cases ha

/-- The admin takes the role from the proposer `5`, and gives it back. -/
def restored : List (Address × RoleCall ℕ Address) :=
  [(1, .revokeRole proposerRole 5), (1, .grantRole proposerRole 5)]

/-- **A proposer that got the role back** is not named. -/
theorem restored_not_named :
    Serves (nodeOf (logsOf (roleEvents (fun _ => 0) 1 initialGrants restored)))
        (logsOf (roleEvents (fun _ => 0) 1 initialGrants restored)) 10 ∧
      Logged 9 (logsOf (roleEvents (fun _ => 0) 1 initialGrants restored)) 10
        (roleEvents (fun _ => 0) 1 initialGrants restored) ∧
      rolesAfter (fun _ => 0) 1 initialGrants restored proposerRole 5 = true ∧
      (∃ members, fetchRoleMembers asInserted
          (nodeOf (logsOf (roleEvents (fun _ => 0) 1 initialGrants restored))) 9 proposerRole (blockTag 10) =
            .ok members ∧ (5 : Address) ∉ members) ∧
      ¬ NamesHolders asInserted (nodeOf (logsOf (roleEvents (fun _ => 0) 1 initialGrants restored))) 9 10
        (rolesAfter (fun _ => 0) 1 initialGrants restored) proposerRole := by
  have hholds : rolesAfter (fun _ => 0) 1 initialGrants restored proposerRole 5 = true := by decide
  have hrevoked : Roles.RevokedIn (roleEvents (fun _ => 0) 1 initialGrants restored) proposerRole 5 :=
    ⟨1, by decide⟩
  have hserves := serves_nodeOf (logsOf (roleEvents (fun _ => 0) 1 initialGrants restored))
  have hlogged := logged_logsOf (roleEvents (fun _ => 0) 1 initialGrants restored)
  obtain ⟨members, h, -, hmem⟩ := fetchRoleMembers_eq asInserted hserves hlogged proposerRole
  have hleft : (5 : Address) ∉ members := fun hin => ((hmem 5).mp hin).2 hrevoked
  refine ⟨hserves, hlogged, hholds, ⟨members, h, hleft⟩, ?_⟩
  rintro ⟨members', h', -, hlists⟩
  obtain rfl := Except.ok.inj (h.symm.trans h')
  exact hleft ((hlists 5).mpr hholds)

end RobotMoney.Client.GetTimelock
