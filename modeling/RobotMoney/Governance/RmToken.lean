import RobotMoney.Lib.Address
import RobotMoney.Lib.Run
import RobotMoney.Lib.Token

/-!
# The voting token

`RmToken`: all units go to one holder when it is deployed, and are only moved afterwards.  Its arithmetic
on balances is unchecked, on 256-bit words.  That it does not wrap follows from what the ledger `Token`
carries with it, the sum of all balances: the contract is a ledger at every point of every run
(`Represents`), and its words are the numbers of the ledger.
-/

namespace RobotMoney.Governance

open RobotMoney.Lib

/-- A `uint256`, with the arithmetic of an `unchecked` block. -/
abbrev Word : Type := BitVec 256

/-- `type(uint256).max` -/
def Word.max : Word := BitVec.allOnes 256

theorem Word.le_max (w : Word) : w ≤ Word.max := by
  unfold Word.max
  rw [BitVec.le_def, BitVec.toNat_allOnes]
  exact Nat.le_sub_one_of_lt w.isLt

inductive RmTokenError where
  | zeroInitialHolder
  | insufficientAllowance
  | transferFromZeroAddress
  | transferToZeroAddress
  | insufficientBalance
  deriving DecidableEq, Repr

/-- The reason strings of the `require`s. -/
def RmTokenError.reason : RmTokenError → String
  | .zeroInitialHolder => "RmToken: zero initial holder"
  | .insufficientAllowance => "RmToken: insufficient allowance"
  | .transferFromZeroAddress => "RmToken: transfer from zero address"
  | .transferToZeroAddress => "RmToken: transfer to zero address"
  | .insufficientBalance => "RmToken: insufficient balance"

inductive RmTokenEvent where
  | transfer (src dst : Address) (value : Word)
  | approval (owner spender : Address) (value : Word)
  deriving DecidableEq

/-- The storage of the token. -/
structure RmToken where
  name : String
  symbol : String
  totalSupply : Word
  balances : Address → Word
  allowances : Address → Address → Word

inductive RmTokenCall where
  | transfer (dst : Address) (amount : Word)
  | approve (spender : Address) (amount : Word)
  | transferFrom (src dst : Address) (amount : Word)
  deriving DecidableEq

/-- What a call of `sender` moves, from which account and to which. -/
def RmTokenCall.moves (sender : Address) : RmTokenCall → Option (Address × Address × Word)
  | .transfer dst amount => some (sender, dst, amount)
  | .approve _ _ => none
  | .transferFrom src dst amount => some (src, dst, amount)

namespace RmToken

/-- `decimals` -/
def decimals : ℕ := 18

/-- The constructor. -/
def deploy (name symbol : String) (initialHolder : Address) (initialSupply : Word) :
    Call RmTokenError (RmToken × List RmTokenEvent) := do
  revertIf (initialHolder = 0) RmTokenError.zeroInitialHolder
  pure
    ({  name, symbol
        totalSupply := initialSupply
        balances := Function.update (fun _ => 0) initialHolder initialSupply
        allowances := fun _ _ => 0 },
      [.transfer 0 initialHolder initialSupply])

def balanceOf (t : RmToken) (account : Address) : Word := t.balances account

def allowance (t : RmToken) (owner spender : Address) : Word := t.allowances owner spender

/-- `_balances[from] -= amount`, unchecked. -/
def debit (t : RmToken) (src : Address) (amount : Word) : RmToken :=
  { t with balances := Function.update t.balances src (t.balances src - amount) }

/-- `_balances[to] += amount`, unchecked. -/
def credit (t : RmToken) (dst : Address) (amount : Word) : RmToken :=
  { t with balances := Function.update t.balances dst (t.balances dst + amount) }

def setAllowance (t : RmToken) (owner spender : Address) (amount : Word) : RmToken :=
  { t with
    allowances :=
      Function.update t.allowances owner (Function.update (t.allowances owner) spender amount) }

/-- `_transfer` -/
def move (t : RmToken) (src dst : Address) (amount : Word) :
    Call RmTokenError (RmToken × List RmTokenEvent) := do
  revertIf (src = 0) RmTokenError.transferFromZeroAddress
  revertIf (dst = 0) RmTokenError.transferToZeroAddress
  revertIf (t.balances src < amount) RmTokenError.insufficientBalance
  pure ((t.debit src amount).credit dst amount, [.transfer src dst amount])

def transfer (t : RmToken) (sender dst : Address) (amount : Word) :
    Call RmTokenError (RmToken × List RmTokenEvent) :=
  t.move sender dst amount

def approve (t : RmToken) (sender spender : Address) (amount : Word) :
    Call RmTokenError (RmToken × List RmTokenEvent) :=
  .ok (t.setAllowance sender spender amount, [.approval sender spender amount])

/-- The allowance is spent before the units are moved; the largest word is not spent. -/
def spend (t : RmToken) (sender src : Address) (amount : Word) : Call RmTokenError RmToken :=
  let allowed := t.allowances src sender
  if allowed ≠ Word.max then do
    revertIf (allowed < amount) RmTokenError.insufficientAllowance
    pure (t.setAllowance src sender (allowed - amount))
  else .ok t

def transferFrom (t : RmToken) (sender src dst : Address) (amount : Word) :
    Call RmTokenError (RmToken × List RmTokenEvent) := do
  let t ← t.spend sender src amount
  t.move src dst amount

/-- A call of the token.  All three return `true` if they do not revert. -/
def exec (t : RmToken) (tx : Tx RmTokenCall) : Call RmTokenError (RmToken × List RmTokenEvent) :=
  match tx.call with
  | .transfer dst amount => t.transfer tx.sender dst amount
  | .approve spender amount => t.approve tx.sender spender amount
  | .transferFrom src dst amount => t.transferFrom tx.sender src dst amount

variable {t t' : RmToken} {l : Token Address} {src dst sender a : Address} {amount : Word}
  {events : List RmTokenEvent} {tx : Tx RmTokenCall}

/-! ### The ledger of the token -/

/-- The words of the token are the numbers of the ledger. -/
structure Represents (t : RmToken) (l : Token Address) : Prop where
  balances : ∀ a, (t.balances a).toNat = l.balanceOf a
  allowances : ∀ a b, (t.allowances a b).toNat = l.allowance a b
  totalSupply : t.totalSupply.toNat = l.totalSupply

theorem toNat_lt_wordSize (w : Word) : w.toNat < wordSize := w.isLt

theorem Represents.balance_eq (h : Represents t l) : ∀ a, l.balanceOf a = (t.balances a).toNat :=
  fun a => (h.balances a).symm

/-- What the constructor leaves is the ledger with one holder. -/
theorem deploy_represents {name symbol : String} {initialHolder : Address} {initialSupply : Word}
    (h : deploy name symbol initialHolder initialSupply = .ok (t, events)) :
    t.totalSupply = initialSupply ∧ ∃ l, Represents t l := by
  obtain ⟨-, -, hpure⟩ := bind_eq_ok.mp h
  obtain ⟨rfl, -⟩ := Prod.mk.injEq .. ▸ pure_eq_ok.mp hpure
  have hfits : (Token.empty : Token Address).totalSupply + initialSupply.toNat < wordSize := by
    show 0 + initialSupply.toNat < wordSize
    rw [Nat.zero_add]
    exact toNat_lt_wordSize initialSupply
  refine ⟨rfl, Token.empty.issue initialHolder initialSupply.toNat hfits, ?_, ?_, ?_⟩
  · intro a
    show (Function.update (fun _ => (0 : Word)) initialHolder initialSupply a).toNat =
      Function.update (fun _ => 0) initialHolder (0 + initialSupply.toNat) a
    by_cases ha : a = initialHolder
    · rw [ha, Function.update_self, Function.update_self, Nat.zero_add]
    · rw [Function.update_of_ne ha, Function.update_of_ne ha]
      rfl
  · intro a b
    rfl
  · show initialSupply.toNat = 0 + initialSupply.toNat
    omega

theorem Represents.setAllowance (h : Represents t l) (owner spender : Address) :
    Represents (t.setAllowance owner spender amount) (l.setAllowance owner spender amount.toNat) where
  balances := h.balances
  allowances a b := by
    show (Function.update t.allowances owner (Function.update (t.allowances owner) spender amount) a
      b).toNat = Function.update l.allowance owner (Function.update (l.allowance owner) spender
        amount.toNat) a b
    by_cases ha : a = owner
    · subst ha
      rw [Function.update_self, Function.update_self]
      by_cases hb : b = spender
      · rw [hb, Function.update_self, Function.update_self]
      · rw [Function.update_of_ne hb, Function.update_of_ne hb, h.allowances]
    · rw [Function.update_of_ne ha, Function.update_of_ne ha, h.allowances]
  totalSupply := h.totalSupply

/-- The two unchecked operations of a transfer are exact. -/
structure Exact (t : RmToken) (src dst : Address) (amount : Word) : Prop where
  covered : amount.toNat ≤ (t.balances src).toNat
  debit : (t.balances src - amount).toNat = (t.balances src).toNat - amount.toNat
  credit : ((t.debit src amount).balances dst + amount).toNat =
    ((t.debit src amount).balances dst).toNat + amount.toNat

/-- A balance before the credit, and what is credited, are parts of the supply. -/
theorem Represents.exact (h : Represents t l) (hle : amount.toNat ≤ (t.balances src).toNat) :
    Exact t src dst amount := by
  have hdebit : (t.balances src - amount).toNat = (t.balances src).toNat - amount.toNat :=
    BitVec.toNat_sub_of_le (BitVec.le_def.mpr hle)
  refine ⟨hle, hdebit, ?_⟩
  rw [BitVec.toNat_add]
  refine Nat.mod_eq_of_lt ?_
  have hfits : (Token.moved l.balanceOf src dst amount.toNat) dst < wordSize :=
    lt_of_le_of_lt ((l.move src dst amount.toNat (h.balances src ▸ hle)).balanceOf_le_supply dst)
      l.totalSupply_lt
  refine lt_of_eq_of_lt ?_ hfits
  show (Function.update t.balances src (t.balances src - amount) dst).toNat + amount.toNat =
    Token.moved l.balanceOf src dst amount.toNat dst
  by_cases hd : dst = src
  · subst hd
    rw [Function.update_self, hdebit, Token.moved_self (h.balances dst ▸ hle), h.balance_eq]
    omega
  · rw [Function.update_of_ne hd, Token.moved_dst (Ne.symm hd), h.balances]

/-- **A transfer** moves units of the ledger, also to the account they come from. -/
theorem Represents.move (h : Represents t l) (dst : Address) (hle : amount.toNat ≤ l.balanceOf src) :
    Represents ((t.debit src amount).credit dst amount) (l.move src dst amount.toNat hle) where
  balances a := by
    have hexact : Exact t src dst amount := h.exact (h.balances src ▸ hle)
    have hdebited : ∀ b, ((t.debit src amount).balances b).toNat =
        Function.update l.balanceOf src (l.balanceOf src - amount.toNat) b := by
      intro b
      show (Function.update t.balances src (t.balances src - amount) b).toNat = _
      by_cases hb : b = src
      · rw [hb, Function.update_self, Function.update_self, hexact.debit, h.balances]
      · rw [Function.update_of_ne hb, Function.update_of_ne hb, h.balances]
    show (Function.update (t.debit src amount).balances dst ((t.debit src amount).balances dst + amount)
      a).toNat = Token.moved l.balanceOf src dst amount.toNat a
    unfold Token.moved
    by_cases ha : a = dst
    · rw [ha, Function.update_self, Function.update_self, hexact.credit, hdebited]
    · rw [Function.update_of_ne ha, Function.update_of_ne ha, hdebited]
  allowances := h.allowances
  totalSupply := h.totalSupply

/-! ### Calls -/

theorem move_eq_ok : t.move src dst amount = .ok (t', events) ↔
    src ≠ 0 ∧ dst ≠ 0 ∧ amount ≤ t.balances src ∧ t' = (t.debit src amount).credit dst amount ∧
      events = [.transfer src dst amount] := by
  unfold move
  simp only [bind_eq_ok, revertIf_eq_ok, pure_eq_ok, Prod.mk.injEq, BitVec.not_lt]
  constructor
  · rintro ⟨-, hsrc, -, hdst, -, hle, rfl, rfl⟩
    exact ⟨hsrc, hdst, hle, rfl, rfl⟩
  · rintro ⟨hsrc, hdst, hle, rfl, rfl⟩
    exact ⟨(), hsrc, (), hdst, (), hle, rfl, rfl⟩

/-- Spending an allowance leaves the balances, and it was enough. -/
theorem spend_ok (h : t.spend sender src amount = .ok t') :
    t'.balances = t.balances ∧ t'.totalSupply = t.totalSupply ∧ amount ≤ t.allowances src sender ∧
      (t' = t ∨ t' = t.setAllowance src sender (t.allowances src sender - amount)) := by
  unfold spend at h
  dsimp only at h
  split at h
  · obtain ⟨_, hcovered, hpure⟩ := bind_eq_ok.mp h
    cases pure_eq_ok.mp hpure
    exact ⟨rfl, rfl, BitVec.not_lt.mp (revertIf_eq_ok.mp hcovered), .inr rfl⟩
  · rename_i hmax
    cases h
    rw [not_not.mp hmax]
    exact ⟨rfl, rfl, Word.le_max amount, .inl rfl⟩

/-- What a successful call does: it approves, or it moves units that the sender may move, after it spent
an allowance for them. -/
inductive Effect (t : RmToken) (tx : Tx RmTokenCall) : RmToken → Prop where
  | approved (spender : Address) (amount : Word) (hcall : tx.call = .approve spender amount) :
      Effect t tx (t.setAllowance tx.sender spender amount)
  | moved (src dst : Address) (amount : Word) (t₁ : RmToken)
      (hallowed : (tx.call = .transfer dst amount ∧ src = tx.sender ∧ t₁ = t) ∨
        (tx.call = .transferFrom src dst amount ∧ t.spend tx.sender src amount = .ok t₁))
      (hle : amount ≤ t.balances src) : Effect t tx ((t₁.debit src amount).credit dst amount)

theorem exec_effect (h : t.exec tx = .ok (t', events)) : Effect t tx t' := by
  unfold exec at h
  cases hcall : tx.call with
  | transfer dst amount =>
    rw [hcall] at h
    obtain ⟨-, -, hle, rfl, -⟩ := move_eq_ok.mp h
    exact .moved tx.sender dst amount t (.inl ⟨hcall, rfl, rfl⟩) hle
  | approve spender amount =>
    rw [hcall] at h
    cases h
    exact .approved spender amount hcall
  | transferFrom src dst amount =>
    rw [hcall] at h
    obtain ⟨t₁, hspend, hmove⟩ := bind_eq_ok.mp h
    obtain ⟨-, -, hle, rfl, -⟩ := move_eq_ok.mp hmove
    rw [(spend_ok hspend).1] at hle
    exact .moved src dst amount t₁ (.inr ⟨hcall, hspend⟩) hle

/-- The call stays within the ledger. -/
theorem Effect.represents (h : Effect t tx t') (hl : Represents t l) : ∃ l', Represents t' l' := by
  cases h with
  | approved spender amount hcall => exact ⟨_, hl.setAllowance tx.sender spender⟩
  | moved src dst amount t₁ hallowed hle =>
    have hl₁ : ∃ l₁, Represents t₁ l₁ ∧ t₁.balances = t.balances := by
      rcases hallowed with ⟨-, -, rfl⟩ | ⟨-, hspend⟩
      · exact ⟨l, hl, rfl⟩
      · obtain ⟨hbalances, -, -, rfl | rfl⟩ := spend_ok hspend
        · exact ⟨l, hl, rfl⟩
        · exact ⟨_, hl.setAllowance src tx.sender, hbalances⟩
    obtain ⟨l₁, hl₁, hbalances⟩ := hl₁
    have hle₁ : amount.toNat ≤ l₁.balanceOf src := by
      rw [hl₁.balance_eq, hbalances]
      exact BitVec.le_def.mp hle
    exact ⟨_, hl₁.move dst hle₁⟩

theorem Effect.totalSupply (h : Effect t tx t') : t'.totalSupply = t.totalSupply := by
  cases h with
  | approved => rfl
  | moved src dst amount t₁ hallowed hle =>
    rcases hallowed with ⟨-, -, rfl⟩ | ⟨-, hspend⟩
    · rfl
    · exact (spend_ok hspend).2.1

/-- The two operations of a successful transfer are exact, whatever was spent before them. -/
theorem Effect.exact {call : RmTokenCall} (h : Effect t tx t') (hl : Represents t l) (hcall : tx.call = call)
    (hmoves : call.moves tx.sender = some (src, dst, amount)) : Exact t src dst amount := by
  cases h with
  | approved spender amount hcall' =>
    cases hcall.symm.trans hcall'
    cases hmoves
  | moved src' dst' amount' t₁ hallowed hle =>
    refine hl.exact ?_
    rcases hallowed with ⟨hcall', rfl, -⟩ | ⟨hcall', -⟩
    · cases hcall.symm.trans hcall'
      cases hmoves
      exact BitVec.le_def.mp hle
    · cases hcall.symm.trans hcall'
      cases hmoves
      exact BitVec.le_def.mp hle

/-- A balance that falls is the sender's, or an allowance for the sender covers what is taken. -/
theorem Effect.falls (h : Effect t tx t') (hl : Represents t l) (hfalls : t'.balances a < t.balances a) :
    a = tx.sender ∨ ∃ dst amount, tx.call = .transferFrom a dst amount ∧
      amount ≤ t.allowances a tx.sender := by
  cases h with
  | approved spender amount hcall => exact absurd hfalls (BitVec.lt_irrefl _)
  | moved src dst amount t₁ hallowed hle =>
    have hbalances : t₁.balances = t.balances := by
      rcases hallowed with ⟨-, -, rfl⟩ | ⟨-, hspend⟩
      · rfl
      · exact (spend_ok hspend).1
    have hmoved : ((t₁.debit src amount).credit dst amount).balances =
        ((t.debit src amount).credit dst amount).balances := by
      unfold credit debit
      dsimp only
      rw [hbalances]
    have hsrc : a = src := by
      by_contra hne
      have hrises : l.balanceOf a ≤ Token.moved l.balanceOf src dst amount.toNat a := Token.le_moved hne
      have hle : amount.toNat ≤ l.balanceOf src := by
        rw [hl.balance_eq]
        exact BitVec.le_def.mp hle
      have hafter := (hl.move dst hle).balances a
      rw [hmoved, BitVec.lt_def, hafter, ← hl.balance_eq] at hfalls
      exact absurd hfalls (Nat.not_lt.mpr hrises)
    subst hsrc
    rcases hallowed with ⟨-, rfl, -⟩ | ⟨hcall, hspend⟩
    · exact .inl rfl
    · exact .inr ⟨dst, amount, hcall, (spend_ok hspend).2.2.1⟩

/-! ### Runs -/

/-- The token at every point of a run is a ledger with the supply it was deployed with. -/
theorem run_represents (txs : List (Tx RmTokenCall)) (hl : Represents t l) :
    (run exec t txs).totalSupply = t.totalSupply ∧ ∃ l', Represents (run exec t txs) l' := by
  refine run_invariant (P := fun s _ => s.totalSupply = t.totalSupply ∧ ∃ l', Represents s l') ⟨rfl, l, hl⟩ ?_
  rintro pre tx post s' events - ⟨hsupply, l', hl'⟩ hexec
  have heffect := exec_effect hexec
  exact ⟨heffect.totalSupply.trans hsupply, heffect.represents hl'⟩

/-- **The token conserves its supply.**  After any calls the balances sum to the supply of the deployment;
a call that succeeds then does exact arithmetic and takes from nobody but its sender and those whose
allowance for the sender covers the amount, and a call that reverts changes nothing. -/
theorem conserves_supply {name symbol : String} {initialHolder : Address} {initialSupply : Word}
    {txs : List (Tx RmTokenCall)} (h : deploy name symbol initialHolder initialSupply = .ok (t, events)) :
    ∑ a, ((run exec t txs).balances a).toNat = (run exec t txs).totalSupply.toNat ∧
    (run exec t txs).totalSupply = initialSupply ∧
    ∀ tx : Tx RmTokenCall,
      (∀ t' events, (run exec t txs).exec tx = .ok (t', events) →
        (∀ src dst amount, tx.call.moves tx.sender = some (src, dst, amount) →
          Exact (run exec t txs) src dst amount) ∧
        ∀ a, a ≠ tx.sender → t'.balances a < (run exec t txs).balances a →
          ∃ dst amount, tx.call = .transferFrom a dst amount ∧
            amount ≤ (run exec t txs).allowances a tx.sender) ∧
      ∀ e, (run exec t txs).exec tx = .error e → next exec (run exec t txs) tx = run exec t txs := by
  obtain ⟨hsupply, l, hl⟩ := deploy_represents h
  obtain ⟨hkept, l', hl'⟩ := run_represents txs hl
  have hsum : ∑ a, ((run exec t txs).balances a).toNat = (run exec t txs).totalSupply.toNat := by
    rw [hl'.totalSupply, ← l'.sum_balanceOf]
    exact Finset.sum_congr rfl fun a _ => hl'.balances a
  refine ⟨hsum, hkept.trans hsupply, ?_⟩
  intro tx
  constructor
  · intro t' events hok
    have heffect := exec_effect hok
    refine ⟨fun src dst amount hmoves => heffect.exact hl' rfl hmoves, ?_⟩
    intro a hne hfalls
    exact (heffect.falls hl' hfalls).resolve_left hne
  · intro e herr
    exact next_of_error herr

/-- Everything is with one holder at first. -/
def launched : RmToken :=
  ⟨"Robot Money Token", "RM", 1000, Function.update (fun _ => 0) 7 1000, fun _ _ => 0⟩

/-- An unlimited allowance and its use, a transfer to oneself, and a transfer that is not covered. -/
def launchedCalls : List (Tx RmTokenCall) :=
  [.of 7 (.of 1 1) (.approve 8 Word.max), .of 8 (.of 2 2) (.transferFrom 7 9 400),
    .of 9 (.of 3 3) (.transfer 9 400), .of 9 (.of 4 4) (.transferFrom 7 9 1)]

theorem conserves_supply_launched :
    ∑ a, ((run exec launched launchedCalls).balances a).toNat =
        (run exec launched launchedCalls).totalSupply.toNat ∧
      (run exec launched launchedCalls).balances 9 = 400 := by
  have h : deploy "Robot Money Token" "RM" 7 1000 = .ok (launched, [.transfer 0 7 1000]) := rfl
  exact ⟨(conserves_supply h).1, by decide +kernel⟩

end RmToken

end RobotMoney.Governance
