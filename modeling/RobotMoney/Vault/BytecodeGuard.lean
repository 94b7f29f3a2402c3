import RobotMoney.Lib.Bytecode
import RobotMoney.Lib.Run
import RobotMoney.Vault.Adapters
import RobotMoney.Vault.Effect

/-!
# The bytecode guard

`AdapterBytecodeGuard`: before the deploy script allows an adapter, it goes through the adapter's code and
refuses it if an instruction is a `DELEGATECALL`.  It leaves out what looks like the compiler's metadata, by
the length that the last two bytes give.

In front of that boundary the guard is right: it finds the first `DELEGATECALL`, and control never comes to
one in code that it lets through (`requireNoDelegatecall_iff`).  But nothing checks that the boundary is the
compiler's: two bytes behind any code make the guard look at nothing of it, and the code does what it did
(`padded_accepted`).  What the script buys is that an adapter in the registry is one that was looked at
(`registered_scanned`).
-/

namespace RobotMoney.Vault

open RobotMoney.Lib Bytecode State

namespace AdapterBytecodeGuard

/-- `OP_DELEGATECALL` -/
def opDelegatecall : ℕ := 0xF4

/-- `OP_PUSH1` -/
def opPush1 : ℕ := 0x60

/-- `OP_PUSH32` -/
def opPush32 : ℕ := 0x7F

inductive GuardError where
  | adapterContainsDelegatecall (adapter : Address) (position : ℕ)
  deriving DecidableEq

/-- `_codeLengthWithoutMetadata(code)` -/
def codeLengthWithoutMetadata (code : Code) : ℕ :=
  let len := code.length
  if len < 2 then len
  else
    let metaLen := opAt code (len - 2) <<< 8 ||| opAt code (len - 1)
    if metaLen = 0 ∨ len < metaLen + 2 then len else len - metaLen - 2

/-- The loop of `_scan`.  Each pass moves the index on, so `len` passes are enough. -/
def scanLoop (code : Code) (len : ℕ) : (passes : ℕ) → (i : ℕ) → Bool × ℕ
  | 0, _ => (false, 0)
  | passes + 1, i =>
    if i < len then
      let op := opAt code i
      if op = opDelegatecall then (true, i)
      else if opPush1 ≤ op ∧ op ≤ opPush32 then scanLoop code len passes (i + (1 + (op - 0x5F)))
      else scanLoop code len passes (i + 1)
    else (false, 0)

/-- `_scan(code)` -/
def scan (code : Code) : Bool × ℕ :=
  scanLoop code (codeLengthWithoutMetadata code) (codeLengthWithoutMetadata code) 0

/-- `containsDelegatecall(code)` -/
def containsDelegatecall (code : Code) : Bool := (scan code).1

/-- `requireNoDelegatecall(adapter)`, where accounts have the code `codeOf`. -/
def requireNoDelegatecall (codeOf : Address → Code) (adapter : Address) : Call GuardError Unit :=
  let (found, position) := scan (codeOf adapter)
  revertIf (found = true) (GuardError.adapterContainsDelegatecall adapter position)

variable {code : Code} {codeOf : Address → Code} {adapter : Address} {len passes i p : ℕ}

/-- The positions that the guard is after: the instructions in front of the boundary that are a
`DELEGATECALL`. -/
def Delegatecalls (code : Code) : Set ℕ :=
  { pc | Starts code pc ∧ pc < codeLengthWithoutMetadata code ∧ opAt code pc = opDelegatecall }

theorem codeLengthWithoutMetadata_le : codeLengthWithoutMetadata code ≤ code.length := by
  unfold codeLengthWithoutMetadata
  dsimp only
  split_ifs <;> omega

/-! ### The scan -/

/-- A pass goes on behind the instruction. -/
theorem scanLoop_succ : scanLoop code len (passes + 1) i =
    if i < len then
      if opAt code i = opDelegatecall then (true, i) else scanLoop code len passes (after code i)
    else (false, 0) := by
  rw [scanLoop]
  dsimp only
  split
  · split
    · rfl
    · unfold after immediates opPush1 opPush32
      split
      · rw [Nat.add_assoc]
      · rfl
  · rfl

/-- What the loop finds from an instruction on: the first position it is after, if there is one. -/
theorem scanLoop_spec (hle : len ≤ code.length) (hi : Starts code i) (hpasses : len ≤ i + passes) :
    (∃ p, scanLoop code len passes i = (true, p) ∧
      IsLeast { pc | i ≤ pc ∧ Starts code pc ∧ pc < len ∧ opAt code pc = opDelegatecall } p) ∨
    (scanLoop code len passes i = (false, 0) ∧
      ∀ pc, i ≤ pc → Starts code pc → pc < len → opAt code pc ≠ opDelegatecall) := by
  induction passes generalizing i with
  | zero =>
    right
    refine ⟨rfl, ?_⟩
    intro pc hpc _ hlt
    omega
  | succ passes ih =>
    rw [scanLoop_succ]
    by_cases hlt : i < len
    · rw [if_pos hlt]
      by_cases hop : opAt code i = opDelegatecall
      · rw [if_pos hop]
        left
        refine ⟨i, rfl, ⟨le_refl i, hi, hlt, hop⟩, ?_⟩
        rintro pc ⟨hpc, -⟩
        exact hpc
      · rw [if_neg hop]
        -- what starts from `i` on starts at `i` or behind its immediate bytes
        have hrest : ∀ pc, i ≤ pc → Starts code pc → opAt code pc = opDelegatecall → after code i ≤ pc := by
          intro pc hpc hstarts hcall
          rcases Nat.lt_or_eq_of_le hpc with h | rfl
          · exact hi.after_le hstarts h
          · exact absurd hcall hop
        have hmore : len ≤ after code i + passes := by
          have hafter : i < after code i := lt_after
          omega
        rcases ih (hi.next (hlt.trans_le hle)) hmore with ⟨p, hscan, ⟨hp, hp'⟩, hleast⟩ | ⟨hscan, hnone⟩
        · left
          refine ⟨p, hscan, ⟨(Nat.le_of_lt lt_after).trans hp, hp'⟩, ?_⟩
          rintro pc ⟨hpc, hstarts, hlen, hcall⟩
          exact hleast ⟨hrest pc hpc hstarts hcall, hstarts, hlen, hcall⟩
        · right
          refine ⟨hscan, ?_⟩
          intro pc hpc hstarts hlen hcall
          exact hnone pc (hrest pc hpc hstarts hcall) hstarts hlen hcall
    · rw [if_neg hlt]
      right
      refine ⟨rfl, ?_⟩
      intro pc hpc _ hlen
      omega

theorem scan_spec (code : Code) : (∃ p, scan code = (true, p) ∧ IsLeast (Delegatecalls code) p) ∨
    (scan code = (false, 0) ∧ Delegatecalls code = ∅) := by
  rcases scanLoop_spec codeLengthWithoutMetadata_le .first
    (Nat.le_add_left (codeLengthWithoutMetadata code) 0) with ⟨p, hscan, hleast⟩ | ⟨hscan, hnone⟩
  · left
    refine ⟨p, hscan, ?_⟩
    simpa [Delegatecalls] using hleast
  · right
    refine ⟨hscan, ?_⟩
    rw [Set.eq_empty_iff_forall_notMem]
    rintro pc ⟨hstarts, hlt, hcall⟩
    exact hnone pc (Nat.zero_le _) hstarts hlt hcall

theorem requireNoDelegatecall_eq_ok {u : Unit} :
    requireNoDelegatecall codeOf adapter = .ok u ↔ Delegatecalls (codeOf adapter) = ∅ := by
  unfold requireNoDelegatecall
  rcases scan_spec (codeOf adapter) with ⟨p, hscan, hleast⟩ | ⟨hscan, hnone⟩
  · rw [hscan]
    refine iff_of_false ?_ hleast.nonempty.ne_empty
    rw [revertIf_eq_ok]
    simp
  · rw [hscan]
    refine iff_of_true ?_ hnone
    rw [revertIf_eq_ok]
    simp

theorem requireNoDelegatecall_eq_error :
    requireNoDelegatecall codeOf adapter = .error (.custom (.adapterContainsDelegatecall adapter p)) ↔
      IsLeast (Delegatecalls (codeOf adapter)) p := by
  unfold requireNoDelegatecall
  rcases scan_spec (codeOf adapter) with ⟨q, hscan, hleast⟩ | ⟨hscan, hnone⟩
  · rw [hscan]
    rw [revertIf_eq_error]
    constructor
    · rintro ⟨-, hp⟩
      simp only [Revert.custom.injEq, GuardError.adapterContainsDelegatecall.injEq, true_and] at hp
      rw [hp]
      exact hleast
    · intro hp
      refine ⟨rfl, ?_⟩
      rw [hp.unique hleast]
  · rw [hscan]
    refine iff_of_false ?_ ?_
    · rw [revertIf_eq_error]
      simp
    · intro hp
      rw [hnone] at hp
      exact hp.1

/-- **The guard, in front of the boundary.**  It lets code through exactly if no instruction there is a
`DELEGATECALL`, else it names the first one; and control never comes to one in code that it lets through. -/
theorem requireNoDelegatecall_iff (codeOf : Address → Code) (adapter : Address) :
    (requireNoDelegatecall codeOf adapter = .ok () ↔ ∀ pc, Starts (codeOf adapter) pc →
      pc < codeLengthWithoutMetadata (codeOf adapter) → opAt (codeOf adapter) pc ≠ opDelegatecall) ∧
    (∀ p, requireNoDelegatecall codeOf adapter = .error (.custom (.adapterContainsDelegatecall adapter p)) ↔
      IsLeast (Delegatecalls (codeOf adapter)) p) ∧
    (requireNoDelegatecall codeOf adapter = .ok () → ∀ pc, Reaches (codeOf adapter) pc →
      pc < codeLengthWithoutMetadata (codeOf adapter) → opAt (codeOf adapter) pc ≠ opDelegatecall) := by
  have hok : requireNoDelegatecall codeOf adapter = .ok () ↔ ∀ pc, Starts (codeOf adapter) pc →
      pc < codeLengthWithoutMetadata (codeOf adapter) → opAt (codeOf adapter) pc ≠ opDelegatecall := by
    rw [requireNoDelegatecall_eq_ok, Set.eq_empty_iff_forall_notMem]
    constructor
    · intro h pc hstarts hlt hcall
      exact h pc ⟨hstarts, hlt, hcall⟩
    · rintro h pc ⟨hstarts, hlt, hcall⟩
      exact h pc hstarts hlt hcall
  refine ⟨hok, fun p => requireNoDelegatecall_eq_error, ?_⟩
  intro h pc hreach
  exact hok.mp h pc hreach.starts

/-- A `DELEGATECALL` among the immediate bytes of a `PUSH2` is none; behind them it is found. -/
example : scan [0x61, 0xF4, 0xF4, 0x00] = (false, 0) ∧ scan [0x61, 0x00, 0xF4, 0xF4] = (true, 3) := by decide

/-! ### The boundary -/

/-- The code with its own length behind it, where the compiler puts the length of the metadata. -/
def padded (code : Code) : Code :=
  code ++ [UInt8.ofNat (code.length / 256), UInt8.ofNat (code.length % 256)]

theorem codeLengthWithoutMetadata_padded (hpos : 0 < code.length) (hlt : code.length < 2 ^ 16) :
    codeLengthWithoutMetadata (padded code) = 0 := by
  have hlen : (padded code).length = code.length + 2 := by simp [padded]
  have hhigh : opAt (padded code) code.length = code.length / 256 := by
    have hget : (padded code)[code.length]? = some (UInt8.ofNat (code.length / 256)) := by
      simp [padded]
    rw [opAt, List.getD_eq_getElem?_getD, hget]
    show (UInt8.ofNat (code.length / 256)).toNat = _
    rw [UInt8.toNat_ofNat']
    omega
  have hlow : opAt (padded code) (code.length + 1) = code.length % 256 := by
    have hget : (padded code)[code.length + 1]? = some (UInt8.ofNat (code.length % 256)) := by
      simp [padded]
    rw [opAt, List.getD_eq_getElem?_getD, hget]
    show (UInt8.ofNat (code.length % 256)).toNat = _
    rw [UInt8.toNat_ofNat']
    omega
  have hmeta : (code.length / 256) <<< 8 ||| code.length % 256 = code.length := by
    rw [← Nat.shiftLeft_add_eq_or_of_lt (by omega : code.length % 256 < 2 ^ 8), Nat.shiftLeft_eq]
    omega
  unfold codeLengthWithoutMetadata
  dsimp only
  rw [hlen, show code.length + 2 - 2 = code.length by omega,
    show code.length + 2 - 1 = code.length + 1 by omega, hhigh, hlow, hmeta, if_neg (by omega),
    if_neg (by omega)]
  omega

/-- **The guard can be made blind.**  Two bytes behind any code, and the guard lets it through, while control
goes where it went and meets the same operations. -/
theorem padded_accepted (code : Code) (codeOf : Address → Code) (adapter : Address)
    (hpos : 0 < code.length) (hlt : code.length < 2 ^ 16) (hcode : codeOf adapter = padded code) :
    requireNoDelegatecall codeOf adapter = .ok () ∧ ∀ pc, Reaches code pc →
      Reaches (codeOf adapter) pc ∧ (pc < code.length → opAt (codeOf adapter) pc = opAt code pc) := by
  rw [requireNoDelegatecall_eq_ok, hcode]
  refine ⟨?_, ?_⟩
  · rw [Set.eq_empty_iff_forall_notMem]
    rintro pc ⟨-, hlen, -⟩
    rw [codeLengthWithoutMetadata_padded hpos hlt] at hlen
    cases hlen
  · intro pc hreach
    exact ⟨hreach.append, opAt_append⟩

/-- Code that delegates at once. -/
theorem padded_accepted_sample :
    requireNoDelegatecall (fun _ => padded [0xF4]) 7 = .ok () ∧ Reaches (padded [0xF4]) 0 ∧
      opAt (padded [0xF4]) 0 = opDelegatecall := by
  obtain ⟨hok, hreach⟩ := padded_accepted [0xF4] (fun _ => padded [0xF4]) 7 (by decide) (by decide) rfl
  obtain ⟨h, hop⟩ := hreach 0 .start
  exact ⟨hok, h, hop (by decide)⟩

end AdapterBytecodeGuard

/-! ### The script -/

section Script

open AdapterBytecodeGuard

variable {V : Type} {env : Env V} {codeOf : Address → Code} {s s' s₀ : State V} {sender adapter : Address}

/-- `_approveAdapter(vault, adapter)` of the deploy script, in the name of `sender`. -/
def approveAdapter (env : Env V) (codeOf : Address → Code) (s : State V) (sender adapter : Address) :
    Call GuardError (State V) := do
  requireNoDelegatecall codeOf adapter
  let s ← inner (s.setAdapterAllowed sender adapter true)
  inner (s.setAdapterCodeHashAllowed sender (env.codehash adapter) true)

/-- `_approveAndRegisterAdapters(d)` -/
def approveAndRegisterAdapters (env : Env V) (codeOf : Address → Code) (s : State V) (sender : Address)
    (passthroughMode : Bool) (aaveAdapter compoundAdapter morphoAdapter : Address) :
    Call GuardError (State V) :=
  if passthroughMode then do
    let s ← approveAdapter env codeOf s sender aaveAdapter
    inner (s.addAdapter env sender aaveAdapter 10000)
  else do
    let s ← approveAdapter env codeOf s sender aaveAdapter
    let s ← approveAdapter env codeOf s sender compoundAdapter
    let s ← approveAdapter env codeOf s sender morphoAdapter
    let s ← inner (s.addAdapter env sender aaveAdapter 3334)
    let s ← inner (s.addAdapter env sender compoundAdapter 3333)
    inner (s.addAdapter env sender morphoAdapter 3333)

/-- What happens to a vault whose adapters are approved by the script. -/
inductive Operation (V : Type) where
  | approve (sender adapter : Address)
  | register (sender : Address) (passthroughMode : Bool)
      (aaveAdapter compoundAdapter morphoAdapter : Address)
  | call (tx : Tx (VaultCall V))

def Operation.exec (env : Env V) (codeOf : Address → Code) (s : State V) :
    Operation V → Call GuardError (State V × Unit)
  | .approve sender adapter => do
    let s ← approveAdapter env codeOf s sender adapter
    pure (s, ())
  | .register sender passthroughMode aave compound morpho => do
    let s ← approveAndRegisterAdapters env codeOf s sender passthroughMode aave compound morpho
    pure (s, ())
  | .call tx => do
    let (s, _) ← inner (s.exec env tx)
    pure (s, ())

theorem addAdapter_eq_ok {capBps : ℕ} (h : s.addAdapter env sender adapter capBps = .ok s') :
    ∃ i : AdapterInfo, i.adapter = adapter ∧ s.requireAdapterEligible env adapter = .ok () ∧
      s' = { s with adapters := s.adapters ++ [i] } := by
  simp only [State.addAdapter, bind_eq_ok] at h
  obtain ⟨_, -, h⟩ := h
  split at h
  · split at h
    · simp only [bind_eq_ok, pure_eq_ok] at h
      obtain ⟨_, -, _, heligible, rfl⟩ := h
      exact ⟨_, rfl, heligible, rfl⟩
    · cases h
  · cases h

/-- No adapter is allowed past the script. -/
def Operation.Scripted : Operation V → Prop
  | .call tx => ∀ a, tx.call ≠ .setAdapterAllowed a true
  | _ => True

/-- Only its setter allows an adapter. -/
theorem exec_adapterAllowed {tx : Tx (VaultCall V)} {r : ℕ × ℕ} (h : s.exec env tx = .ok (s', r))
    (hcall : ∀ a v, tx.call ≠ .setAdapterAllowed a v) : s'.adapterAllowed = s.adapterAllowed := by
  obtain ⟨b, sender, call, hsender⟩ := tx
  unfold State.exec at h
  cases call with
  | user call =>
    rw [userExec_frame h]
  | transfer | approve | transferFrom | grantRole | revokeRole | renounceRole =>
    obtain ⟨_, -, h⟩ := bind_eq_ok.mp h
    cases h
    rfl
  | elsewhere world =>
    cases h
    rfl
  | setAdapterAllowed a v => exact absurd rfl (hcall a v)
  | addAdapter adapter capBps =>
    obtain ⟨i, -, -, rfl⟩ := addAdapter_eq_ok (silent_eq_ok h)
    rfl
  | rebalance =>
    have h := silent_eq_ok h
    simp only [State.rebalance, bind_eq_ok, Prod.exists, pure_eq_ok] at h
    obtain ⟨_, -, _, -, _, -, _, -, _, -, _, -, w, _, -, s₁, hroute, rfl⟩ := h
    rw [routeIdle_frame hroute]
  | adminRebalance targetBalances =>
    have h := silent_eq_ok h
    simp only [State.adminRebalance, bind_eq_ok, Prod.exists, pure_eq_ok] at h
    obtain ⟨_, -, _, -, w, _, -, w', -, rfl⟩ := h
    rfl
  | emergencyWithdrawAdapter index =>
    have h := silent_eq_ok h
    simp only [State.emergencyWithdrawAdapter, bind_eq_ok] at h
    obtain ⟨_, -, h⟩ := h
    split at h <;> cases h
    rfl
  | setAdapterCap index newCapBps =>
    have h := silent_eq_ok h
    simp only [State.setAdapterCap, bind_eq_ok] at h
    obtain ⟨_, -, _, -, h⟩ := h
    split at h <;> cases h
    rfl
  | setExitFeeBps | setFeeRecipient | setMaxRebalanceBpsPerCall | setMinRebalanceInterval =>
    have h := silent_eq_ok h
    simp only [State.setExitFeeBps, State.setFeeRecipient, State.setMaxRebalanceBpsPerCall,
      State.setMinRebalanceInterval, bind_eq_ok] at h
    obtain ⟨_, -, h⟩ := h
    split at h <;> cases h
    rfl
  | pause | unpause | emergencyWithdraw | shutdownVault | setTvlCap | setPerDepositCap =>
    have h := silent_eq_ok h
    simp only [State.pause, State.unpause, State.emergencyWithdraw, State.shutdownVault, State.setTvlCap,
      State.setPerDepositCap, bind_eq_ok, pure_eq_ok] at h
    obtain ⟨_, -, rfl⟩ := h
    rfl
  | setAdapterCodeHashAllowed | forceRemoveAdapter =>
    have h := silent_eq_ok h
    simp only [State.setAdapterCodeHashAllowed, State.forceRemoveAdapter, bind_eq_ok, pure_eq_ok] at h
    obtain ⟨_, -, _, -, rfl⟩ := h
    rfl
  | removeAdapter index =>
    have h := silent_eq_ok h
    simp only [State.removeAdapter, bind_eq_ok, pure_eq_ok] at h
    obtain ⟨_, -, _, -, _, -, rfl⟩ := h
    rfl
  | rescueTokens token dst =>
    have h := silent_eq_ok h
    simp only [State.rescueTokens, bind_eq_ok, pure_eq_ok] at h
    obtain ⟨_, -, _, -, _, -, _, -, ext, -, rfl⟩ := h
    rfl

/-! ### What the script buys -/

/-- All that is allowed or registered was let through by the guard. -/
structure Scanned (codeOf : Address → Code) (s : State V) : Prop where
  allowed : ∀ a, s.adapterAllowed a = true → Delegatecalls (codeOf a) = ∅
  registered : ∀ i ∈ s.adapters, Delegatecalls (codeOf i.adapter) = ∅

theorem Scanned.approveAdapter (h : Scanned codeOf s)
    (hx : approveAdapter env codeOf s sender adapter = .ok s') : Scanned codeOf s' := by
  unfold Vault.approveAdapter at hx
  simp only [bind_eq_ok, inner_eq_ok, State.setAdapterAllowed, State.setAdapterCodeHashAllowed,
    pure_eq_ok] at hx
  obtain ⟨_, hguard, s₁, ⟨_, -, _, -, rfl⟩, _, -, _, -, rfl⟩ := hx
  refine ⟨?_, h.registered⟩
  intro a ha
  by_cases heq : a = adapter
  · rw [heq]
    exact requireNoDelegatecall_eq_ok.mp hguard
  · exact h.allowed a (by simpa [Function.update_of_ne heq] using ha)

/-- What is registered is allowed. -/
theorem eligible_allowed (h : s.requireAdapterEligible env adapter = .ok ()) :
    s.adapterAllowed adapter = true := by
  unfold State.requireAdapterEligible at h
  obtain ⟨_, hallowed, -⟩ := bind_eq_ok.mp h
  exact Bool.not_eq_false _ ▸ revertIf_eq_ok.mp hallowed

theorem Scanned.call {tx : Tx (VaultCall V)} {r : ℕ × ℕ} (h : Scanned codeOf s)
    (hcall : ∀ a, tx.call ≠ .setAdapterAllowed a true) (hx : s.exec env tx = .ok (s', r)) :
    Scanned codeOf s' := by
  have hallowed : ∀ a, s'.adapterAllowed a = true → s.adapterAllowed a = true := by
    intro a ha
    by_cases hset : ∃ b v, tx.call = .setAdapterAllowed b v
    · obtain ⟨b, v, hset⟩ := hset
      obtain rfl : v = false := by
        by_contra hv
        have hv : v = true := by simpa using hv
        exact hcall b (hv ▸ hset)
      unfold State.exec at hx
      rw [hset] at hx
      have hx := silent_eq_ok hx
      simp only [State.setAdapterAllowed, bind_eq_ok, pure_eq_ok] at hx
      obtain ⟨_, -, _, -, rfl⟩ := hx
      by_cases hab : a = b
      · simp [hab] at ha
      · simpa [Function.update_of_ne hab] using ha
    · rwa [exec_adapterAllowed hx fun b v hb => hset ⟨b, v, hb⟩] at ha
  refine ⟨fun a ha => h.allowed a (hallowed a ha), ?_⟩
  cases exec_effect hx with
  | quiet hq =>
    rw [hq.adapters]
    exact h.registered
  | added hc hadmin hne hpos hle hcount heligible =>
    intro i hi
    rcases List.mem_append.mp hi with hi | hi
    · exact h.registered i hi
    · obtain rfl := List.mem_singleton.mp hi
      exact h.allowed _ (eligible_allowed heligible)
  | edited hentry hactive hsame =>
    intro i hi
    rcases List.mem_or_eq_of_mem_set hi with hi | rfl
    · exact h.registered i hi
    · rw [hsame]
      exact h.registered _ (List.mem_of_getElem? hentry)
  | paused | unpaused | emergency | granted | dropped => exact h.registered

theorem Scanned.addAdapter {capBps : ℕ} (h : Scanned codeOf s)
    (hx : s.addAdapter env sender adapter capBps = .ok s') : Scanned codeOf s' := by
  obtain ⟨i, rfl, heligible, rfl⟩ := addAdapter_eq_ok hx
  refine ⟨h.allowed, ?_⟩
  intro j hj
  rcases List.mem_append.mp hj with hj | hj
  · exact h.registered j hj
  · obtain rfl := List.mem_singleton.mp hj
    exact h.allowed _ (eligible_allowed heligible)

theorem Scanned.register {passthroughMode : Bool} {aave compound morpho : Address} (h : Scanned codeOf s)
    (hx : approveAndRegisterAdapters env codeOf s sender passthroughMode aave compound morpho = .ok s') :
    Scanned codeOf s' := by
  unfold approveAndRegisterAdapters at hx
  split at hx
  · simp only [bind_eq_ok, inner_eq_ok] at hx
    obtain ⟨s₁, h₁, h₂⟩ := hx
    exact (h.approveAdapter h₁).addAdapter h₂
  · simp only [bind_eq_ok, inner_eq_ok] at hx
    obtain ⟨s₁, h₁, s₂, h₂, s₃, h₃, s₄, h₄, s₅, h₅, h₆⟩ := hx
    have happroved := ((h.approveAdapter h₁).approveAdapter h₂).approveAdapter h₃
    exact ((happroved.addAdapter h₄).addAdapter h₅).addAdapter h₆

theorem Scanned.step {op : Operation V} (h : Scanned codeOf s)
    (hop : op.Scripted) (hx : op.exec env codeOf s = .ok (s', ())) : Scanned codeOf s' := by
  cases op with
  | approve sender adapter =>
    obtain ⟨s₁, h₁, hx⟩ := bind_eq_ok.mp hx
    cases hx
    exact h.approveAdapter h₁
  | register sender passthroughMode aave compound morpho =>
    obtain ⟨s₁, h₁, hx⟩ := bind_eq_ok.mp hx
    cases hx
    exact h.register h₁
  | call tx =>
    obtain ⟨⟨s₁, r⟩, h₁, hx⟩ := bind_eq_ok.mp hx
    cases hx
    exact h.call hop (inner_eq_ok.mp h₁)

/-- **The registry behind the guard.**  As long as only the script allows adapters, control never comes to a
`DELEGATECALL` in front of the boundary in the code of a registered adapter. -/
theorem registered_scanned {tvlCap perDepositCap exitFeeBps : ℕ} {feeRecipient admin : Address}
    {world : World V} (env : Env V) (codeOf : Address → Code)
    (hdeploy : deploy tvlCap perDepositCap exitFeeBps feeRecipient admin world = .ok s₀)
    (ops : List (Operation V)) (hops : ∀ op ∈ ops, op.Scripted) :
    ∀ i ∈ (run (Operation.exec env codeOf) s₀ ops).adapters, ∀ pc, Reaches (codeOf i.adapter) pc →
      pc < codeLengthWithoutMetadata (codeOf i.adapter) → opAt (codeOf i.adapter) pc ≠ opDelegatecall := by
  have hrun : Scanned codeOf (run (Operation.exec env codeOf) s₀ ops) := by
    refine run_invariant (P := fun s _ => Scanned codeOf s) ?_ ?_
    · obtain ⟨fee, recipient, rfl⟩ := deploy_eq_ok hdeploy
      exact ⟨by rintro a ⟨⟩, by rintro i ⟨⟩⟩
    · intro pre op post s' r hsplit h hx
      exact h.step (hops op (by simp [hsplit])) hx
  intro i hi pc hreach hlt hcall
  have hnone := hrun.registered i hi
  rw [Set.eq_empty_iff_forall_notMem] at hnone
  exact hnone pc ⟨hreach.starts, hlt, hcall⟩

/-- A deployment with a passthrough adapter, of which the guard sees that it stops at once. -/
theorem registered_scanned_passthrough :
    let ops : List (Operation Unit) := [.register 20 true 40 0 0, .call (.of 20 (.of 10 1000) .pause)]
    (run (Operation.exec (passthrough 30 10) fun _ => [0x00]) (initial 100 100 ⟨0, by decide⟩ ⟨20, by decide⟩ 20
      ⟨Token.empty, ()⟩) ops).adapters.map (fun i => i.adapter) = [40] ∧
    ∀ i ∈ (run (Operation.exec (passthrough 30 10) fun _ => [0x00]) (initial 100 100 ⟨0, by decide⟩
      ⟨20, by decide⟩ 20 ⟨Token.empty, ()⟩) ops).adapters, ∀ pc, Reaches [0x00] pc →
      pc < codeLengthWithoutMetadata [0x00] → opAt [0x00] pc ≠ opDelegatecall := by
  have hdeploy : deploy 100 100 0 20 20 (⟨Token.empty, ()⟩ : World Unit) =
      .ok (initial 100 100 ⟨0, by decide⟩ ⟨20, by decide⟩ 20 ⟨Token.empty, ()⟩) := rfl
  refine ⟨by decide, registered_scanned (passthrough 30 10) (fun _ => [0x00]) hdeploy _ ?_⟩
  intro op hop
  rcases hop with _ | ⟨_, _ | ⟨_, ⟨⟩⟩⟩
  · trivial
  · intro a h
    cases (show VaultCall.pause = _ from h)

end Script

end RobotMoney.Vault
