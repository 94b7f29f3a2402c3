import RobotMoney.Client.Stages

/-!
# The nonces of an agent

`nonce/mod.rs`: a command takes the lock of its agent before it asks for the nonce, and holds it until it
exits.  Here any number of deposits and withdrawals of one agent run against one state directory and one node,
in any order of their steps; each of them may fail, give up or be killed at any point.

The files are locked exclusively, and a lock ends with its process.  The node may answer anything, but that
the pending count is the number of transactions it has accepted; a transaction that is sent reaches it once,
while the call lasts, or never, and it accepts or drops it.

Both commands keep to one discipline, whatever they are answered (`deposit_follows`, `withdraw_follows`): the
lock, then one nonce, then one transaction with it.  With that, `Ordered` holds in every state: a command that
is past its lock holds it, and a nonce that has not reached the node is still the next.
-/

namespace RobotMoney.Client.Commands

open RobotMoney.Lib
open RobotMoney.Gateway (Bytes32)

/-! ### The discipline -/

/-- How far a command is: without the lock, with it, with a nonce that it may use, with none left. -/
inductive Phase where
  | idle
  | locked
  | numbered (nonce : ℕ)
  | spent
  deriving DecidableEq

/-- It has asked for the nonce. -/
def Phase.HasRead : Phase → Prop
  | .numbered _ | .spent => True
  | .idle | .locked => False

theorem Phase.HasRead.ne_idle {ph : Phase} (h : ph.HasRead) : ph ≠ .idle := by
  rintro rfl
  exact h

/-- For the lock in the file `path` of the agent `agent`. -/
def nonceDiscipline (path : String) (agent : Address) : Discipline Query Query.Answer where
  Phase := Phase
  start := .idle
  allows ph
    | .tryLockExclusive p => ph = .idle ∧ p = path
    | .transactionCount a tag => ph = .locked ∧ a = agent ∧ tag = "pending"
    | .sendRawTransaction raw => ph = .numbered raw.nonce
    | _ => True
  next ph
    | .tryLockExclusive _, .ok _ => .locked
    | .transactionCount _ _, .ok n => .numbered n
    | .transactionCount _ _, .error _ => .spent
    | .sendRawTransaction _, _ => .spent
    | _, _ => ph

section Stages

variable {path : String} {agent : Address} {ph : Phase} {audit : AuditRecordBuilder} {stateDir : String}
  {k : Command} {c : Crates} {inv : Invocation}

/-- In one phase, what goes through the stages. -/
theorem follows_stagewise : Stagewise fun p => p.Follows (nonceDiscipline path agent) ph where
  startupFail := trivial
  refused := trivial
  refuse _ := ⟨trivial, fun _ => trivial⟩
  ask {q} _ hq hk := by
    cases q with
    | systemTime | readKeystore | createDirAll | openFile | replayOpen | buildRuntime | newClient | readChain
    | feeHistory | sleep => exact ⟨trivial, hk⟩
    | tryLockExclusive | recordAudit | replayLookup | replayInsert | transactionCount | signEip1559Hash
    | sendRawTransaction | transactionReceipt => exact hq.elim

theorem acquire_follows (hpath : lockPath stateDir audit.agent = path)
    (hk : k.Follows (nonceDiscipline path agent) .locked) :
    (acquire audit stateDir k).Follows (nonceDiscipline path agent) .idle := by
  refine ⟨trivial, ?_⟩
  rintro (e | _)
  · trivial
  refine ⟨trivial, ?_⟩
  rintro (e | _)
  · trivial
  refine ⟨⟨rfl, hpath⟩, ?_⟩
  rintro ((_ | e) | _)
  · exact follows_stagewise.refuse id
  · trivial
  · exact hk

/-- The nonce that is answered is the nonce that is sent, at most once. -/
theorem transmit_follows {fees : FeeBid} {input : Calldata} {k : ℕ → Command} (hagent : audit.agent = agent)
    (hk : ∀ txHash, (k txHash).Follows (nonceDiscipline path agent) .spent) :
    (transmit audit inv fees input k).Follows (nonceDiscipline path agent) .locked := by
  refine ⟨⟨rfl, hagent, rfl⟩, ?_⟩
  rintro (e | nonce)
  · trivial
  refine ⟨trivial, ?_⟩
  rintro (e | signature)
  · trivial
  refine ⟨rfl, ?_⟩
  rintro (e | txHash)
  · exact follows_stagewise.refuse id
  · exact hk txHash

theorem settle_follows {txHash receiptTimeoutSecs : ℕ} {event : GatewayEvent} {missing : Refusal}
    (hmissing : ¬ missing.FromCache) :
    (settle audit txHash event missing receiptTimeoutSecs).Follows (nonceDiscipline path agent) ph :=
  follows_stagewise.settle (fun hk => ⟨trivial, hk⟩) hmissing fun _ _ => ⟨trivial, fun _ => trivial⟩

/-- The state directory of an invocation is `stateDir`, if it has one. -/
def SharesStateDir (stateDir : String) (inv : Invocation) : Prop :=
  ∀ dir, resolveStateDir inv.cfg inv.stateDirVar = .ok dir → dir = stateDir

theorem deposit_follows (hdir : SharesStateDir stateDir inv) :
    (deposit c inv).Follows (nonceDiscipline (lockPath stateDir inv.agent) inv.agent) .idle := by
  refine follows_stagewise.start ?_
  intro audit dir hstarted
  cases hdir dir hstarted.stateDir
  refine acquire_follows (congrArg _ hstarted.agent) ?_
  refine follows_stagewise.lookup (fun hk => ⟨trivial, hk⟩) (fun _ => ⟨trivial, fun _ => trivial⟩) ?_
  refine follows_stagewise.connect (follows_stagewise.preflight (follows_stagewise.bidFees ?_))
  intro fees
  refine transmit_follows hstarted.agent ?_
  exact fun _ => ⟨trivial, fun _ => settle_follows id⟩

theorem withdraw_follows {sourceVault : Address} (hdir : SharesStateDir stateDir inv) :
    (withdraw c inv sourceVault).Follows (nonceDiscipline (lockPath stateDir inv.agent) inv.agent) .idle := by
  refine follows_stagewise.start ?_
  intro audit dir hstarted
  cases hdir dir hstarted.stateDir
  refine acquire_follows (congrArg _ hstarted.agent) (follows_stagewise.connect ?_)
  refine follows_stagewise.preflight (follows_stagewise.preflight (follows_stagewise.bidFees ?_))
  intro fees
  exact transmit_follows hstarted.agent fun _ => settle_follows id

end Stages

/-! ### The files and the node -/

structure Shared where
  /-- which process holds the lock of a file -/
  locks : String → Option ℕ
  /-- what the node has accepted from the agent -/
  accepted : List SignedTx
  /-- whether what a process is sending has reached the node -/
  delivered : ℕ → Bool
  /-- whether a process has read the nonce -/
  nonceRead : ℕ → Bool

/-- No process runs, and the node has accepted some transactions. -/
def Shared.fresh (accepted : List SignedTx) : Shared where
  locks _ := none
  accepted
  delivered _ := false
  nonceRead _ := false

/-- The files and the node, for the agent. -/
def node (agent : Address) : World Query Query.Answer Shared where
  works i s
    | .sendRawTransaction raw, s' => s.delivered i = false ∧
        (s' = { s with delivered := Function.update s.delivered i true } ∨
          s' = { s with
            delivered := Function.update s.delivered i true
            accepted := s.accepted ++ [raw] })
    | _, _ => False
  answers i s
    | .tryLockExclusive path, .ok _, s' =>
      s.locks path = none ∧ s' = { s with locks := Function.update s.locks path (some i) }
    | .transactionCount a tag, r, s' =>
      (a = agent → tag = "pending" → ∀ n, r = .ok n → n = s.accepted.length) ∧
        s' = { s with nonceRead := Function.update s.nonceRead i true }
    | .sendRawTransaction _, _, s' => s' = { s with delivered := Function.update s.delivered i false }
    | _, _, s' => s' = s
  ends i s :=
    { s with
      locks := fun path => if s.locks path = some i then none else s.locks path
      delivered := Function.update s.delivered i false
      nonceRead := Function.update s.nonceRead i false }

/-- An invocation of either command by the agent, with the state directory. -/
def Invoked (c : Crates) (stateDir : String) (agent : Address) (p : Command) : Prop :=
  ∃ inv, inv.agent = agent ∧ SharesStateDir stateDir inv ∧
    (p = deposit c inv ∨ ∃ sourceVault, p = withdraw c inv sourceVault)

theorem Invoked.follows {c : Crates} {stateDir : String} {agent : Address} {p : Command}
    (h : Invoked c stateDir agent p) :
    p.Follows (nonceDiscipline (lockPath stateDir agent) agent) .idle := by
  obtain ⟨inv, rfl, hdir, rfl | ⟨sourceVault, rfl⟩⟩ := h
  · exact deposit_follows hdir
  · exact withdraw_follows hdir

/-! ### One step -/

section Step

variable {path : String} {agent : Address} {φ : ℕ → Option Phase} {s s' : Shared} {i j : ℕ} {ph : Phase}

/-- What an answer to a command in a phase can do. -/
inductive AnswerEffect (path : String) (i : ℕ) (s : Shared) : Phase → Phase → Shared → Prop
  | same {ph : Phase} : AnswerEffect path i s ph ph s
  | lock (hfree : s.locks path = none) : AnswerEffect path i s .idle .locked
      { s with locks := Function.update s.locks path (some i) }
  | read {ph : Phase} (hread : ph.HasRead) (hcount : ∀ n, ph = .numbered n → n = s.accepted.length) :
      AnswerEffect path i s .locked ph { s with nonceRead := Function.update s.nonceRead i true }
  | sent {n : ℕ} : AnswerEffect path i s (.numbered n) .spent
      { s with delivered := Function.update s.delivered i false }

theorem answer_effect {q : Query} {a : q.Answer} (hallows : (nonceDiscipline path agent).allows ph q)
    (h : (node agent).answers i s q a s') :
    AnswerEffect path i s ph ((nonceDiscipline path agent).next ph q a) s' := by
  cases q with
  | tryLockExclusive p =>
    obtain ⟨rfl, rfl⟩ := hallows
    cases a with
    | error e =>
      cases h
      exact .same
    | ok _ =>
      obtain ⟨hfree, rfl⟩ := h
      exact .lock hfree
  | transactionCount a' tag =>
    obtain ⟨rfl, rfl, rfl⟩ := hallows
    obtain ⟨hcount, rfl⟩ := h
    cases a with
    | error e => exact .read trivial (by rintro n ⟨⟩)
    | ok n =>
      refine .read trivial ?_
      rintro _ ⟨⟩
      exact hcount rfl rfl n rfl
  | sendRawTransaction raw =>
    cases hallows
    cases h
    exact .sent
  | _ =>
    cases h
    exact .same

/-- What holds of the phases and of the world: a command past its lock holds it, a process that has read the
nonce is in a phase that says so, a nonce that has not reached the node is the next, and the nonces so far
were handed out one after the other. -/
structure Ordered (path : String) (φ : ℕ → Option Phase) (s : Shared) : Prop where
  holds : ∀ i ph, φ i = some ph → ph ≠ .idle → s.locks path = some i
  read : ∀ i, s.nonceRead i = true → ∃ ph, φ i = some ph ∧ ph.HasRead
  count : ∀ i n, φ i = some (.numbered n) → s.delivered i = false → n = s.accepted.length
  nonces : s.accepted.map SignedTx.nonce = List.range s.accepted.length

theorem Ordered.fresh {accepted : List SignedTx}
    (h : accepted.map SignedTx.nonce = List.range accepted.length) :
    Ordered path (fun _ => none) (.fresh accepted) where
  holds := by rintro i ph ⟨⟩
  read := by rintro i ⟨⟩
  count := by rintro i n ⟨⟩
  nonces := h

/-- Two commands past the lock are one. -/
theorem Ordered.unique (h : Ordered path φ s) {ph' : Phase} (hi : φ i = some ph) (hne : ph ≠ .idle)
    (hj : φ j = some ph') (hne' : ph' ≠ .idle) : i = j := by
  have hlock := h.holds i ph hi hne
  rw [h.holds j ph' hj hne'] at hlock
  exact (Option.some.inj hlock).symm

/-- The phase of one command, and those of the others. -/
theorem update_eq_some {x : Option Phase} (h : Function.update φ i x j = some ph) :
    j = i ∧ x = some ph ∨ j ≠ i ∧ φ j = some ph := by
  by_cases hj : j = i
  · subst hj
    rw [Function.update_self] at h
    exact .inl ⟨rfl, h⟩
  · rw [Function.update_of_ne hj] at h
    exact .inr ⟨hj, h⟩

theorem Ordered.spawn (h : Ordered path φ s) (hfree : φ i = none) :
    Ordered path (Function.update φ i (some .idle)) s where
  holds := by
    intro j ph hj hne
    obtain ⟨-, hph⟩ | ⟨-, hj'⟩ := update_eq_some hj
    · cases hph
      exact absurd rfl hne
    · exact h.holds j ph hj' hne
  read := by
    intro j hj
    obtain ⟨ph, hph, hread⟩ := h.read j hj
    have hne : j ≠ i := by
      rintro rfl
      rw [hfree] at hph
      cases hph
    exact ⟨ph, by rw [Function.update_of_ne hne, hph], hread⟩
  count := by
    intro j n hj
    obtain ⟨-, hph⟩ | ⟨-, hj'⟩ := update_eq_some hj
    · cases hph
    · exact h.count j n hj'
  nonces := h.nonces

/-- The node works on a transaction that is sent. -/
theorem Ordered.work {q : Query} (h : Ordered path φ s) (hi : φ i = some ph)
    (hallows : (nonceDiscipline path agent).allows ph q) (hworks : (node agent).works i s q s') :
    Ordered path φ s' := by
  cases q with
  | sendRawTransaction raw =>
    cases hallows
    -- the only command with a nonce is the one whose transaction has now reached the node
    have hnone : ∀ j n, φ j = some (.numbered n) → Function.update s.delivered i true j ≠ false := by
      intro j n hj
      cases h.unique hi (by simp) hj (by simp)
      rw [Function.update_self]
      simp
    obtain ⟨hpending, rfl | rfl⟩ := hworks
    · exact
        { holds := h.holds
          read := h.read
          count := fun j n hj hdelivered => absurd hdelivered (hnone j n hj)
          nonces := h.nonces }
    · have hnonce := h.count i raw.nonce hi hpending
      refine
        { holds := h.holds
          read := h.read
          count := fun j n hj hdelivered => absurd hdelivered (hnone j n hj)
          nonces := ?_ }
      rw [List.map_append, h.nonces, List.length_append, List.length_singleton, List.range_succ,
        List.map_singleton, hnonce]
  | _ => cases hworks

theorem Ordered.locked (h : Ordered path φ s) (hi : φ i = some .idle) (hfree : s.locks path = none) :
    Ordered path (Function.update φ i (some .locked))
      { s with locks := Function.update s.locks path (some i) } where
  holds := by
    intro j ph hj hne
    obtain ⟨rfl, -⟩ | ⟨-, hj'⟩ := update_eq_some hj
    · exact Function.update_self ..
    · -- nobody was past the lock
      have hlock := h.holds j ph hj' hne
      rw [hfree] at hlock
      cases hlock
  read := by
    intro j hj
    obtain ⟨ph, hph, hread⟩ := h.read j hj
    have hne : j ≠ i := by
      rintro rfl
      rw [hi] at hph
      cases hph
      exact hread
    exact ⟨ph, by rw [Function.update_of_ne hne, hph], hread⟩
  count := by
    intro j n hj
    obtain ⟨-, hph⟩ | ⟨-, hj'⟩ := update_eq_some hj
    · cases hph
    · exact h.count j n hj'
  nonces := h.nonces

theorem Ordered.readNonce (h : Ordered path φ s) (hi : φ i = some .locked) (hread : ph.HasRead)
    (hcount : ∀ n, ph = .numbered n → n = s.accepted.length) :
    Ordered path (Function.update φ i (some ph))
      { s with nonceRead := Function.update s.nonceRead i true } where
  holds := by
    intro j ph' hj hne
    obtain ⟨rfl, -⟩ | ⟨-, hj'⟩ := update_eq_some hj
    · exact h.holds j .locked hi (by simp)
    · exact h.holds j ph' hj' hne
  read := by
    intro j hj
    by_cases hji : j = i
    · subst hji
      exact ⟨ph, Function.update_self .., hread⟩
    · rw [Function.update_of_ne hji]
      dsimp only at hj
      rw [Function.update_of_ne hji] at hj
      exact h.read j hj
  count := by
    intro j n hj hdelivered
    obtain ⟨-, hph⟩ | ⟨-, hj'⟩ := update_eq_some hj
    · exact hcount n (Option.some.inj hph)
    · exact h.count j n hj' hdelivered
  nonces := h.nonces

theorem Ordered.sent {n : ℕ} (h : Ordered path φ s) (hi : φ i = some (.numbered n)) :
    Ordered path (Function.update φ i (some .spent))
      { s with delivered := Function.update s.delivered i false } where
  holds := by
    intro j ph hj hne
    obtain ⟨rfl, -⟩ | ⟨-, hj'⟩ := update_eq_some hj
    · exact h.holds j _ hi (by simp)
    · exact h.holds j ph hj' hne
  read := by
    intro j hj
    by_cases hji : j = i
    · subst hji
      exact ⟨.spent, Function.update_self .., trivial⟩
    · rw [Function.update_of_ne hji]
      exact h.read j hj
  count := by
    intro j n hj hdelivered
    obtain ⟨-, hph⟩ | ⟨hji, hj'⟩ := update_eq_some hj
    · cases hph
    · refine h.count j n hj' ?_
      dsimp only at hdelivered
      rwa [Function.update_of_ne hji] at hdelivered
  nonces := h.nonces

theorem Ordered.answer {ph' : Phase} (h : Ordered path φ s) (hi : φ i = some ph)
    (he : AnswerEffect path i s ph ph' s') : Ordered path (Function.update φ i (some ph')) s' := by
  cases he with
  | same =>
    rw [← hi, Function.update_eq_self]
    exact h
  | lock hfree => exact h.locked hi hfree
  | read hread hcount => exact h.readNonce hi hread hcount
  | sent => exact h.sent hi

/-- A command exits, or is killed: what it held is free. -/
theorem Ordered.ends (h : Ordered path φ s) (i : ℕ) :
    Ordered path (Function.update φ i none) ((node agent).ends i s) where
  holds := by
    intro j ph hj hne
    obtain ⟨-, hph⟩ | ⟨hji, hj'⟩ := update_eq_some hj
    · cases hph
    · have hlock := h.holds j ph hj' hne
      change (if s.locks path = some i then none else s.locks path) = some j
      rw [hlock, if_neg]
      exact fun hsome => hji (Option.some.inj hsome)
  read := by
    intro j hj
    change Function.update s.nonceRead i false j = true at hj
    by_cases hji : j = i
    · subst hji
      rw [Function.update_self] at hj
      cases hj
    · rw [Function.update_of_ne hji] at hj ⊢
      exact h.read j hj
  count := by
    intro j n hj hdelivered
    change Function.update s.delivered i false j = false at hdelivered
    obtain ⟨-, hph⟩ | ⟨hji, hj'⟩ := update_eq_some hj
    · cases hph
    · rw [Function.update_of_ne hji] at hdelivered
      exact h.count j n hj' hdelivered
  nonces := h.nonces

theorem preserved_ordered :
    Preserved (node agent) (nonceDiscipline path agent) (Ordered path) where
  spawn _ _ _ h hfree := h.spawn hfree
  work _ _ _ _ _ _ h hi hallows hworks := h.work hi hallows hworks
  answer _ _ _ _ _ _ _ h hi hallows hanswers := h.answer hi (answer_effect hallows hanswers)
  ends _ _ i _ h _ := h.ends i

end Step

/-! ### Every run -/

section Runs

variable {c : Crates} {stateDir : String} {agent : Address} {accepted : List SignedTx}
  {s : Running Query Query.Answer Outcome Shared}

/-- In every state the commands are in phases that are ordered. -/
theorem reachable_ordered (h₀ : accepted.map SignedTx.nonce = List.range accepted.length)
    (h : (node agent).Reachable (Invoked c stateDir agent) ⟨fun _ => none, .fresh accepted⟩ s) :
    ∃ φ, InPhases (nonceDiscipline (lockPath stateDir agent) agent) s.programs φ ∧
      Ordered (lockPath stateDir agent) φ s.shared :=
  reachable_invariant preserved_ordered (fun _ hp => hp.follows) (.fresh h₀) h

/-- **Nonce safety.**  Deposits and withdrawals of one agent, that share a state directory and a node, run in
any order of their steps, after the agent's earlier transactions, if any, with the nonces from 0 on: at most
one of them is between its nonce and its exit, and no two transactions that the node has accepted have the
same nonce. -/
theorem nonces_safe (h₀ : accepted.map SignedTx.nonce = List.range accepted.length)
    (h : (node agent).Reachable (Invoked c stateDir agent) ⟨fun _ => none, .fresh accepted⟩ s) :
    (∀ i j, s.shared.nonceRead i = true → s.shared.nonceRead j = true → i = j) ∧
      (s.shared.accepted.map SignedTx.nonce).Nodup := by
  obtain ⟨φ, -, hordered⟩ := reachable_ordered h₀ h
  constructor
  · intro i j hi hj
    obtain ⟨ph, hph, hread⟩ := hordered.read i hi
    obtain ⟨ph', hph', hread'⟩ := hordered.read j hj
    exact hordered.unique hph hread.ne_idle hph' hread'.ne_idle
  · rw [hordered.nonces]
    exact List.nodup_range

end Runs

/-! ### A deposit that is made again -/

/-- A node of a test chain, where the agent `4` has 500 of everything until the time 1000. -/
def mockRpc : Rpc where
  chainId := .ok 31337
  getCode _ := .ok mockCode
  callViewPaused _ := .ok false
  callViewUsdc _ := .ok 2
  callViewVault _ := .ok 3
  callViewAgents _ _ := .ok ⟨true, 1000, 500, 500, 4, 4, 500, 500⟩
  callViewAgentDepositWindowGross _ _ := .ok 0
  callViewAgentWithdrawWindowGross _ _ := .ok 0
  callViewAllowance _ _ _ := .ok 500
  callViewBalanceOf _ _ := .ok 500
  callVaultPaused _ := .ok false
  callErc20Allowance _ _ _ := .ok 500
  callErc20BalanceOf _ _ := .ok 500

def mockInvocation : Invocation where
  cfg := { mockConfig with chainId := 31337 }
  stateDirVar := some "/var/lib/rmpc"
  passphraseVar := some "secret"
  agent := 4
  args := ⟨100, .word 7, none, 60⟩
  receiptTimeoutSecs := 60
  gasLimit := 200000
  feeCapWei := none

theorem mockInvocation_sharesStateDir : SharesStateDir "/var/lib/rmpc" mockInvocation := by
  rintro dir ⟨⟩
  rfl

/-- The transaction of its deposit, at the time 900. -/
def mockTx (nonce : ℕ) : SignedTx :=
  ⟨⟨31337, nonce, 1, 200000, ⟨21 * oneGwei, oneGwei⟩, 0, .deposit (.word 7) 100 960 (.word 7)⟩, []⟩

/-- Its lock. -/
def mockPath : String := lockPath "/var/lib/rmpc" 4

/-- The world once it has reached the node. -/
def mockSent (i : ℕ) (s : Shared) : Shared where
  locks := Function.update s.locks mockPath (some i)
  accepted := s.accepted ++ [mockTx s.accepted.length]
  delivered := Function.update s.delivered i true
  nonceRead := Function.update s.nonceRead i true

theorem mockDeposit_serves {i : ℕ} {s : Shared} (hfree : s.locks mockPath = none)
    (hpending : s.delivered i = false) :
    ∃ p, (node 4).Serves i (deposit mockCrates mockInvocation) s p (mockSent i s) := by
  have hstart := World.Serves.start (w := node 4) (i := i) (p := deposit mockCrates mockInvocation) (s := s)
  have hsigner := (hstart.answer (900 : ℕ) rfl).answer (.ok ()) rfl
  have hlocked := ((hsigner.answer (.ok ()) rfl).answer (.ok ()) rfl).answer (.ok ()) ⟨hfree, rfl⟩
  have hlookup := (hlocked.answer (.ok ()) rfl).answer (.ok none) rfl
  have hclient := (hlookup.answer (.ok ()) rfl).answer (.ok ()) rfl
  have hfees := (hclient.answer (mockRpc, 900) rfl).answer (.ok ⟨[10 * oneGwei], none⟩) rfl
  have hnonce := hfees.answer (.ok s.accepted.length) ⟨fun _ _ n hn => (Except.ok.inj hn).symm, rfl⟩
  have hsigned := hnonce.answer (.ok []) rfl
  exact ⟨_, hsigned.work ⟨hpending, .inr rfl⟩⟩

theorem mockInvoked : Invoked mockCrates "/var/lib/rmpc" 4 (deposit mockCrates mockInvocation) :=
  ⟨mockInvocation, rfl, mockInvocation_sharesStateDir, .inl rfl⟩

/-- A deposit is killed once its transaction has reached the node, and made again: the second one is past its
nonce, and there are two transactions. -/
theorem nonces_safe_retried : ∃ s, (node 4).Reachable (Invoked mockCrates "/var/lib/rmpc" 4)
      ⟨fun _ => none, .fresh []⟩ s ∧ s.shared.accepted = [mockTx 0, mockTx 1] ∧
    s.shared.nonceRead 1 = true ∧
    (∀ i j, s.shared.nonceRead i = true → s.shared.nonceRead j = true → i = j) ∧
    (s.shared.accepted.map SignedTx.nonce).Nodup := by
  obtain ⟨p, hserves⟩ := mockDeposit_serves (i := 0) (s := .fresh []) rfl rfl
  have hspawned : (node 4).Reachable (Invoked mockCrates "/var/lib/rmpc" 4) ⟨fun _ => none, .fresh []⟩
      ⟨Function.update (fun _ => none) 0 (some (deposit mockCrates mockInvocation)), .fresh []⟩ :=
    .step .start (.spawn rfl mockInvoked)
  have hkilled := (hspawned.serves rfl hserves).step (.kill (i := 0) (p := p) rfl)
  -- the first is killed, and its lock is free
  obtain ⟨p', hserves'⟩ := mockDeposit_serves (i := 1) (s := (node 4).ends 0 (mockSent 0 (.fresh [])))
    (by simp [node, mockSent]) (by simp [node, mockSent, Shared.fresh])
  have hretried := hkilled.step (.spawn (i := 1) rfl mockInvoked)
  have hsent := hretried.serves rfl hserves'
  exact ⟨_, hsent, rfl, rfl, nonces_safe rfl hsent⟩

end RobotMoney.Client.Commands
