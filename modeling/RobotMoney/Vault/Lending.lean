import RobotMoney.Lib.Passive
import RobotMoney.Vault.SharePrice
import RobotMoney.Vault.Touches

/-!
# The lending adapters

`AaveV3Adapter`, `CompoundV3Adapter` and `MorphoAdapter`: each puts the vault's USDC into a protocol and takes it
out again.  They deposit in the same way, by an allowance that is gone afterwards, and differ in how a withdrawal
comes back: the pool of Aave sends to the vault and says how much it sent; Compound sends to the adapter, which
measures and forwards; Morpho sends to the vault, and the adapter measures what the vault got.

The protocols are not assumed to be honest.  What is assumed is the rule of the USDC ledger: while a protocol
runs, the vault and the adapters make no call (`Lawful`).  Then, over every run of the vault: an adapter ends every
call without allowances, and never has less USDC of its own than before, so USDC sent to it stays there
(`gifts_stay`); and a `_pullProportional` that succeeds has brought what it was asked for, or all that the adapters
report, provided that Aave's answers are true (`pull_covers`).
-/

namespace RobotMoney.Vault

open RobotMoney.Lib State

/-- The protocols.  `withdraw` of Aave is `withdraw(asset, amount, to)` with its answer, that of Compound
`withdraw(asset, amount)`, which sends to its caller, and that of Morpho `withdraw(amount, receiver, owner)`. -/
structure Protocols (V : Type) where
  supply : World V → (protocol caller : Address) → (amount : ℕ) → Call Unit (World V)
  withdraw : World V → (protocol caller dst : Address) → (amount : ℕ) → Call Unit (World V × ℕ)
  balanceOf : World V → (token account : Address) → ℕ
  convertToAssets : World V → (protocol : Address) → (shares : ℕ) → ℕ

inductive LendingError where
  | onlyVault
  | withdrawShortfall (requested actual : ℕ)
  deriving DecidableEq

variable {V : Type}

/-! ### The adapters -/

/-- The body of `deploy(amount)`, which the three share: an allowance, the deposit, and no allowance. -/
def deployInto (P : Protocols V) (protocol vault sender : Address) (w : World V) (adapter : Address) (amount : ℕ) :
    Call LendingError (World V) := do
  revertIf (sender ≠ vault) LendingError.onlyVault
  let increased ← addU (w.usdc.allowance adapter protocol) amount
  let usdc ← w.usdc.approve adapter protocol increased
  let w ← inner (P.supply { w with usdc } protocol adapter amount)
  if 0 < w.usdc.allowance adapter protocol then do
    let usdc ← w.usdc.approve adapter protocol 0
    pure { w with usdc }
  else pure w

/-- `if (amount != type(uint256).max && actual < amount) revert` -/
def checkShortfall (amount actual : ℕ) : Call LendingError Unit :=
  revertIf (amount ≠ maxWord ∧ actual < amount) (LendingError.withdrawShortfall amount actual)

namespace AaveV3Adapter

/-- `deploy(amount)` -/
def deploy (P : Protocols V) (pool vault sender : Address) (w : World V) (adapter : Address) (amount : ℕ) :
    Call LendingError (World V) :=
  deployInto P pool vault sender w adapter amount

/-- `withdraw(amount)` -/
def withdraw (P : Protocols V) (pool vault sender : Address) (w : World V) (adapter : Address) (amount : ℕ) :
    Call LendingError (World V × ℕ) := do
  revertIf (sender ≠ vault) LendingError.onlyVault
  let (w, actual) ← inner (P.withdraw w pool adapter vault amount)
  checkShortfall amount actual
  pure (w, actual)

/-- `totalAssets()` -/
def totalAssets (P : Protocols V) (aToken : Address) (w : World V) (adapter : Address) : ℕ :=
  P.balanceOf w aToken adapter

end AaveV3Adapter

namespace CompoundV3Adapter

/-- `deploy(amount)` -/
def deploy (P : Protocols V) (comet vault sender : Address) (w : World V) (adapter : Address) (amount : ℕ) :
    Call LendingError (World V) :=
  deployInto P comet vault sender w adapter amount

/-- `if (actual > 0) USDC.safeTransfer(VAULT, actual)` -/
def forward (vault : Address) (w : World V) (adapter : Address) (actual : ℕ) : Call LendingError (World V) :=
  if 0 < actual then do
    let usdc ← w.usdc.transfer adapter vault actual
    pure { w with usdc }
  else pure w

/-- `withdraw(amount)` -/
def withdraw (P : Protocols V) (comet vault sender : Address) (w : World V) (adapter : Address) (amount : ℕ) :
    Call LendingError (World V × ℕ) := do
  revertIf (sender ≠ vault) LendingError.onlyVault
  let preBalance := w.usdc.balanceOf adapter
  let (w, _) ← inner (P.withdraw w comet adapter adapter amount)
  let actual ← subU (w.usdc.balanceOf adapter) preBalance
  let w ← forward vault w adapter actual
  checkShortfall amount actual
  pure (w, actual)

/-- `totalAssets()` -/
def totalAssets (P : Protocols V) (comet : Address) (w : World V) (adapter : Address) : ℕ :=
  P.balanceOf w comet adapter

end CompoundV3Adapter

namespace MorphoAdapter

/-- `deploy(amount)` -/
def deploy (P : Protocols V) (morphoVault vault sender : Address) (w : World V) (adapter : Address)
    (amount : ℕ) : Call LendingError (World V) :=
  deployInto P morphoVault vault sender w adapter amount

/-- `withdraw(amount)` -/
def withdraw (P : Protocols V) (morphoVault vault sender : Address) (w : World V) (adapter : Address)
    (amount : ℕ) : Call LendingError (World V × ℕ) := do
  revertIf (sender ≠ vault) LendingError.onlyVault
  let preBalance := w.usdc.balanceOf vault
  let (w, _) ← inner (P.withdraw w morphoVault adapter vault amount)
  let actual ← subU (w.usdc.balanceOf vault) preBalance
  checkShortfall amount actual
  pure (w, actual)

/-- `totalAssets()` -/
def totalAssets (P : Protocols V) (morphoVault : Address) (w : World V) (adapter : Address) : ℕ :=
  P.convertToAssets w morphoVault (P.balanceOf w morphoVault adapter)

end MorphoAdapter

/-- Which adapter is at an address, and its protocol. -/
inductive Venue where
  | aaveV3 (pool aToken : Address)
  | compoundV3 (comet : Address)
  | morpho (morphoVault : Address)

namespace Venue

/-- The contract that gets the allowance. -/
def protocol : Venue → Address
  | aaveV3 pool _ => pool
  | compoundV3 comet => comet
  | morpho morphoVault => morphoVault

def deploy (P : Protocols V) (vault sender : Address) : Venue → World V → Address → ℕ → Call LendingError (World V)
  | aaveV3 pool _ => AaveV3Adapter.deploy P pool vault sender
  | compoundV3 comet => CompoundV3Adapter.deploy P comet vault sender
  | morpho morphoVault => MorphoAdapter.deploy P morphoVault vault sender

def withdraw (P : Protocols V) (vault sender : Address) :
    Venue → World V → Address → ℕ → Call LendingError (World V × ℕ)
  | aaveV3 pool _ => AaveV3Adapter.withdraw P pool vault sender
  | compoundV3 comet => CompoundV3Adapter.withdraw P comet vault sender
  | morpho morphoVault => MorphoAdapter.withdraw P morphoVault vault sender

def totalAssets (P : Protocols V) : Venue → World V → Address → ℕ
  | aaveV3 _ aToken => AaveV3Adapter.totalAssets P aToken
  | compoundV3 comet => CompoundV3Adapter.totalAssets P comet
  | morpho morphoVault => MorphoAdapter.totalAssets P morphoVault

end Venue

/-- The surroundings of the vault at `base.self`, with these adapters. -/
def lending (P : Protocols V) (venue : Address → Venue) (base : Env V) : Env V :=
  { base with
    adapterAssets := fun w a => (venue a).totalAssets P w a
    adapterDeploy := fun w a x => inner ((venue a).deploy P base.self base.self w a x)
    adapterWithdraw := fun w a x => inner ((venue a).withdraw P base.self base.self w a x) }

/-- While a protocol runs, the accounts of the list make no call. -/
structure Lawful (P : Protocols V) (as : List Address) : Prop where
  supply : ∀ w protocol caller amount w', P.supply w protocol caller amount = .ok w' →
    ∀ b ∈ as, Token.Passive b w.usdc w'.usdc
  withdraw : ∀ w protocol caller dst amount w' y, P.withdraw w protocol caller dst amount = .ok (w', y) →
    ∀ b ∈ as, Token.Passive b w.usdc w'.usdc

/-- None of the accounts has given an allowance. -/
def Closed (as : List Address) (w : World V) : Prop := ∀ b ∈ as, Token.NoAllowances b w.usdc

variable {P : Protocols V} {venue : Address → Venue} {base : Env V} {ads : List Address} {w w' : World V}
  {a protocol vault sender : Address} {x y : ℕ}

/-! ### Withdrawals -/

/-- What holds of every withdrawal from an adapter: no account gives an allowance, and no adapter loses USDC. -/
structure Withdrawn (vault : Address) (ads : List Address) (w w' : World V) : Prop where
  closed : Closed (vault :: ads) w'
  kept : ∀ b ∈ vault :: ads, w.usdc.balanceOf b ≤ w'.usdc.balanceOf b

theorem withdrawn_of_passive (hclosed : Closed (vault :: ads) w)
    (h : ∀ b ∈ vault :: ads, Token.Passive b w.usdc w'.usdc) : Withdrawn vault ads w w' :=
  ⟨fun b hb => ((h b hb).le_of_noAllowances (hclosed b hb)).2,
    fun b hb => ((h b hb).le_of_noAllowances (hclosed b hb)).1⟩

theorem checkShortfall_eq_ok {u : Unit} : checkShortfall x y = .ok u ↔ (x ≠ maxWord → x ≤ y) := by
  unfold checkShortfall
  rw [revertIf_eq_ok, not_and, Nat.not_lt]

theorem aave_withdrawn (hlaw : Lawful P (vault :: ads)) (hclosed : Closed (vault :: ads) w)
    (h : AaveV3Adapter.withdraw P protocol vault sender w a x = .ok (w', y)) :
    Withdrawn vault ads w w' ∧ (x ≠ maxWord → x ≤ y) ∧ P.withdraw w protocol a vault x = .ok (w', y) := by
  simp only [AaveV3Adapter.withdraw, bind_eq_ok, Prod.exists, inner_eq_ok, checkShortfall_eq_ok, exists_const,
    pure_eq_ok, Prod.mk.injEq] at h
  obtain ⟨-, -, w₁, y₁, hpool, henough, rfl, rfl⟩ := h
  exact ⟨withdrawn_of_passive hclosed (hlaw.withdraw _ _ _ _ _ _ _ hpool), henough, hpool⟩

theorem morpho_withdrawn (hlaw : Lawful P (vault :: ads)) (hclosed : Closed (vault :: ads) w)
    (h : MorphoAdapter.withdraw P protocol vault sender w a x = .ok (w', y)) :
    Withdrawn vault ads w w' ∧ (x ≠ maxWord → x ≤ y) ∧
      w'.usdc.balanceOf vault = w.usdc.balanceOf vault + y := by
  simp only [MorphoAdapter.withdraw, bind_eq_ok, Prod.exists, inner_eq_ok, checkShortfall_eq_ok, exists_const,
    pure_eq_ok, Prod.mk.injEq, subU_eq_ok] at h
  obtain ⟨-, -, w₁, y₁, hmorpho, z, ⟨hle, rfl⟩, henough, rfl, rfl⟩ := h
  exact ⟨withdrawn_of_passive hclosed (hlaw.withdraw _ _ _ _ _ _ _ hmorpho), henough, by omega⟩

/-- What Compound sent beyond what the adapter had goes on to the vault, and no more. -/
theorem compound_withdrawn (hlaw : Lawful P (vault :: ads)) (hclosed : Closed (vault :: ads) w) (ha : a ∈ ads)
    (hout : vault ∉ ads) (h : CompoundV3Adapter.withdraw P protocol vault sender w a x = .ok (w', y)) :
    Withdrawn vault ads w w' ∧ (x ≠ maxWord → x ≤ y) ∧
      w.usdc.balanceOf vault + y ≤ w'.usdc.balanceOf vault := by
  have hne : a ≠ vault := ne_of_mem_of_not_mem ha hout
  simp only [CompoundV3Adapter.withdraw, bind_eq_ok, Prod.exists, inner_eq_ok, checkShortfall_eq_ok, exists_const,
    pure_eq_ok, Prod.mk.injEq, subU_eq_ok] at h
  obtain ⟨-, -, w₁, y₁, hcomet, z, ⟨hle, rfl⟩, w₂, hforward, henough, rfl, rfl⟩ := h
  obtain ⟨hclosed₁, hkept₁⟩ := withdrawn_of_passive hclosed (hlaw.withdraw _ _ _ _ _ _ _ hcomet)
  have hvault := hkept₁ vault List.mem_cons_self
  unfold CompoundV3Adapter.forward at hforward
  split at hforward
  · obtain ⟨usdc, htransfer, hforward⟩ := bind_eq_ok.mp hforward
    cases hforward
    obtain ⟨-, -, hv, rfl⟩ := Token.transfer_eq_ok.mp htransfer
    refine ⟨⟨hclosed₁, fun b hb => ?_⟩, henough, ?_⟩
    · show w.usdc.balanceOf b ≤ Token.moved w₁.usdc.balanceOf a vault _ b
      by_cases hba : b = a
      · subst hba
        rw [Token.moved_src hne]
        omega
      · exact (hkept₁ b hb).trans (Token.le_moved hba)
    · show _ ≤ Token.moved w₁.usdc.balanceOf a vault _ vault
      rw [Token.moved_dst hne]
      omega
  · cases hforward
    exact ⟨⟨hclosed₁, hkept₁⟩, henough, by omega⟩

/-! ### Deposits -/

/-- The approved ledger: the adapter has what it had and `x` more, and allows the protocol to take `x`. -/
theorem approved_entries {usdc usdc₁ : Token Address} (hclosed : Closed (vault :: ads) w) (ha : a ∈ ads)
    (hout : vault ∉ ads) (htransfer : (w.usdc.transfer vault a x : Call VaultError _) = .ok usdc)
    (happrove : (usdc.approve a protocol x : Call LendingError _) = .ok usdc₁) :
    usdc₁.balanceOf a = w.usdc.balanceOf a + x ∧ usdc₁.allowance a protocol = x ∧
      (∀ s, s ≠ protocol → usdc₁.allowance a s = 0) ∧
      ∀ b ∈ vault :: ads, b ≠ a → (b ∈ ads → usdc₁.balanceOf b = w.usdc.balanceOf b) ∧
        Token.NoAllowances b usdc₁ := by
  have hne : a ≠ vault := ne_of_mem_of_not_mem ha hout
  obtain ⟨-, -, hv, rfl⟩ := Token.transfer_eq_ok.mp htransfer
  obtain ⟨-, -, rfl⟩ := Token.approve_eq_ok.mp happrove
  refine ⟨Token.moved_dst hne.symm, Token.setAllowance_allowance_self _ _ _ _, ?_, ?_⟩
  · intro s hs
    rw [Token.setAllowance_allowance_of_ne _ _ (.inr hs)]
    exact hclosed a (List.mem_cons_of_mem _ ha) s
  · intro b hb hba
    refine ⟨fun hads => Token.moved_of_ne (ne_of_mem_of_not_mem hads hout) hba, fun s => ?_⟩
    rw [Token.setAllowance_allowance_of_ne _ _ (.inl hba)]
    exact hclosed b hb s

/-- A deposit leaves no allowance, and takes no more of the adapter's USDC than the vault sent. -/
theorem deployInto_kept {usdc : Token Address} (hlaw : Lawful P (vault :: ads)) (hclosed : Closed (vault :: ads) w)
    (ha : a ∈ ads) (hout : vault ∉ ads) (htransfer : (w.usdc.transfer vault a x : Call VaultError _) = .ok usdc)
    (h : deployInto P protocol vault sender { w with usdc } a x = .ok w') :
    Closed (vault :: ads) w' ∧ ∀ b ∈ ads, w.usdc.balanceOf b ≤ w'.usdc.balanceOf b := by
  have hne : a ≠ vault := ne_of_mem_of_not_mem ha hout
  have hnone : usdc.allowance a protocol = 0 := by
    obtain ⟨-, -, hv, rfl⟩ := Token.transfer_eq_ok.mp htransfer
    exact hclosed a (List.mem_cons_of_mem _ ha) protocol
  simp only [deployInto, bind_eq_ok, inner_eq_ok, addU_eq_ok] at h
  obtain ⟨-, -, increased, ⟨-, rfl⟩, usdc₁, happrove, w₁, hsupply, h⟩ := h
  rw [hnone, Nat.zero_add] at happrove
  obtain ⟨hbal, hallow, hother, hrest⟩ := approved_entries hclosed ha hout htransfer happrove
  have hpassive : ∀ b ∈ vault :: ads, Token.Passive b usdc₁ w₁.usdc := hlaw.supply _ _ _ _ _ hsupply
  have hpassive_a := hpassive a (List.mem_cons_of_mem _ ha)
  have hown : w.usdc.balanceOf a ≤ w₁.usdc.balanceOf a := by
    by_cases hlim : x < maxWord
    · have hle := (hpassive_a.le_of_allowance (hallow ▸ hlim) hother).1
      omega
    · -- the vault had all units that there are
      obtain ⟨-, -, hv, -⟩ := Token.transfer_eq_ok.mp htransfer
      have hsum := w.usdc.sum_le_supply (List.nodup_cons.mpr ⟨by simpa using hne.symm, List.nodup_singleton a⟩)
      have hlt := w.usdc.totalSupply_lt
      simp only [List.map_cons, List.map_nil, List.sum_cons, List.sum_nil] at hsum
      unfold maxWord at hlim
      unfold wordSize at hlt
      omega
  have hkept : ∀ b ∈ ads, w.usdc.balanceOf b ≤ w₁.usdc.balanceOf b := by
    intro b hb
    by_cases hba : b = a
    · rwa [hba]
    · obtain ⟨hsame, hno⟩ := hrest b (List.mem_cons_of_mem _ hb) hba
      rw [← hsame hb]
      exact ((hpassive b (List.mem_cons_of_mem _ hb)).le_of_noAllowances hno).1
  have hclosed₁ : ∀ b ∈ vault :: ads, b ≠ a → Token.NoAllowances b w₁.usdc :=
    fun b hb hba => ((hpassive b hb).le_of_noAllowances (hrest b hb hba).2).2
  have hothers₁ : ∀ s, s ≠ protocol → w₁.usdc.allowance a s = 0 :=
    fun s hs => Nat.le_zero.mp (hother s hs ▸ hpassive_a.allowance s)
  split at h
  · obtain ⟨usdc₂, hreset, h⟩ := bind_eq_ok.mp h
    cases h
    obtain ⟨-, -, rfl⟩ := Token.approve_eq_ok.mp hreset
    refine ⟨fun b hb s => ?_, hkept⟩
    show (w₁.usdc.setAllowance a protocol 0).allowance b s = 0
    by_cases hbs : b = a ∧ s = protocol
    · obtain ⟨rfl, rfl⟩ := hbs
      exact Token.setAllowance_allowance_self _ _ _ _
    · rw [Token.setAllowance_allowance_of_ne _ _ (not_and_or.mp hbs)]
      by_cases hba : b = a
      · rw [hba]
        exact hothers₁ s fun hs => hbs ⟨hba, hs⟩
      · exact hclosed₁ b hb hba s
  · rename_i hremaining
    cases h
    refine ⟨fun b hb s => ?_, hkept⟩
    by_cases hba : b = a
    · rw [hba]
      by_cases hs : s = protocol
      · rw [hs]
        exact Nat.eq_zero_of_not_pos hremaining
      · exact hothers₁ s hs
    · exact hclosed₁ b hb hba s

/-! ### Runs -/

/-- The answers of the pools of Aave are true: what a pool says it sent has come. -/
def Truthful (P : Protocols V) (venue : Address → Venue) (vault : Address) (ads : List Address) : Prop :=
  ∀ a ∈ ads, ∀ pool aToken, venue a = .aaveV3 pool aToken → ∀ w x w' y,
    P.withdraw w pool a vault x = .ok (w', y) → w.usdc.balanceOf vault + y ≤ w'.usdc.balanceOf vault

theorem lending_deploy (h : (lending P venue base).adapterDeploy w a x = .ok w') :
    deployInto P (venue a).protocol base.self base.self w a x = .ok w' := by
  have h : (venue a).deploy P base.self base.self w a x = .ok w' := inner_eq_ok.mp h
  cases hvenue : venue a with
  | aaveV3 | compoundV3 | morpho =>
    rw [hvenue] at h
    exact h

section Run

variable (hlaw : Lawful P (base.self :: ads)) (hout : base.self ∉ ads)

include hlaw hout

theorem lending_withdrawn (hclosed : Closed (base.self :: ads) w) (ha : a ∈ ads)
    (h : (lending P venue base).adapterWithdraw w a x = .ok (w', y)) :
    Withdrawn base.self ads w w' ∧ (x ≠ maxWord → x ≤ y) ∧
      (Truthful P venue base.self ads → w.usdc.balanceOf base.self + y ≤ w'.usdc.balanceOf base.self) := by
  have h : (venue a).withdraw P base.self base.self w a x = .ok (w', y) := inner_eq_ok.mp h
  cases hvenue : venue a with
  | aaveV3 pool aToken =>
    rw [hvenue] at h
    obtain ⟨hw, henough, hpool⟩ := aave_withdrawn hlaw hclosed h
    exact ⟨hw, henough, fun htrue => htrue a ha pool aToken hvenue _ _ _ _ hpool⟩
  | compoundV3 comet =>
    rw [hvenue] at h
    obtain ⟨hw, henough, hgot⟩ := compound_withdrawn hlaw hclosed ha hout h
    exact ⟨hw, henough, fun _ => hgot⟩
  | morpho morphoVault =>
    rw [hvenue] at h
    obtain ⟨hw, henough, hgot⟩ := morpho_withdrawn hlaw hclosed h
    exact ⟨hw, henough, fun _ => hgot.ge⟩

/-- A step of a call keeps the allowances away, and the USDC of the adapters. -/
theorem touch_kept {as : List Address} (has : ∀ a ∈ as, a ∈ ads) (hclosed : Closed (base.self :: ads) w)
    (h : Touch (lending P venue base) as w w') :
    Closed (base.self :: ads) w' ∧ ∀ b ∈ ads, w.usdc.balanceOf b ≤ w'.usdc.balanceOf b := by
  cases h with
  | move h =>
    cases h with
    | withdraw ha h =>
      obtain ⟨⟨hclosed', hkept⟩, -⟩ := lending_withdrawn hlaw hout hclosed (has _ ha) h
      exact ⟨hclosed', fun b hb => hkept b (List.mem_cons_of_mem _ hb)⟩
    | @deploy a x usdc _ ha htransfer h =>
      exact deployInto_kept hlaw hclosed (has _ ha) hout htransfer (lending_deploy h)
  | pay h =>
    refine ⟨fun b hb s => ?_, fun b hb => ?_⟩
    · obtain ⟨-, -, hv, rfl⟩ := Token.transfer_eq_ok.mp h
      exact hclosed b hb s
    · have hpassive : Token.Passive b w.usdc _ := .of_transfer (ne_of_mem_of_not_mem hb hout) h
      exact (hpassive.le_of_noAllowances (hclosed b (List.mem_cons_of_mem _ hb))).1
  | pull h =>
    have hpassive : ∀ b, Token.Passive b w.usdc _ := fun b => .of_transferFrom h
    exact ⟨fun b hb => ((hpassive b).le_of_noAllowances (hclosed b hb)).2,
      fun b hb => ((hpassive b).le_of_noAllowances (hclosed b (List.mem_cons_of_mem _ hb))).1⟩
  | rescue ext => exact ⟨hclosed, fun b _ => Nat.le_refl _⟩

theorem touches_kept {as : List Address} (has : ∀ a ∈ as, a ∈ ads) (hclosed : Closed (base.self :: ads) w)
    (h : Touches (lending P venue base) as w w') :
    Closed (base.self :: ads) w' ∧ ∀ b ∈ ads, w.usdc.balanceOf b ≤ w'.usdc.balanceOf b := by
  induction h with
  | refl => exact ⟨hclosed, fun b _ => Nat.le_refl _⟩
  | tail _ htouch ih =>
    obtain ⟨hclosed₁, hkept₁⟩ := ih
    obtain ⟨hclosed₂, hkept₂⟩ := touch_kept hlaw hout has hclosed₁ htouch
    exact ⟨hclosed₂, fun b hb => (hkept₁ b hb).trans (hkept₂ b hb)⟩

end Run

/-- A run of the vault whose adapters are all among `ads`, and which starts without allowances.  What others do
meanwhile, they do without calls of the vault and the adapters. -/
structure LendingRun (P : Protocols V) (venue : Address → Venue) (base : Env V) (ads : List Address) (s₀ : State V)
    (txs : List (Tx (VaultCall V))) : Prop where
  lawful : Lawful P (base.self :: ads)
  self_not_mem : base.self ∉ ads
  closed : Closed (base.self :: ads) s₀.world
  registered : ∀ a ∈ s₀.registered, a ∈ ads
  added : ∀ tx ∈ txs, ∀ a capBps, tx.call = .addAdapter a capBps → a ∈ ads
  elsewhere : ∀ pre tx post, txs = pre ++ tx :: post → ∀ world, tx.call = .elsewhere world →
    ∀ b ∈ base.self :: ads,
      Token.Passive b (run (exec (lending P venue base)) s₀ pre).world.usdc world.usdc

/-- What holds at every point of such a run. -/
structure LendingInv (base : Env V) (ads : List Address) (s₀ s : State V) : Prop where
  closed : Closed (base.self :: ads) s.world
  registered : ∀ a ∈ s.registered, a ∈ ads
  kept : ∀ b ∈ ads, s₀.world.usdc.balanceOf b ≤ s.world.usdc.balanceOf b

variable {s₀ : State V} {txs : List (Tx (VaultCall V))}

theorem LendingRun.inv (h : LendingRun P venue base ads s₀ txs) :
    LendingInv base ads s₀ (run (exec (lending P venue base)) s₀ txs) := by
  refine run_invariant (P := fun s _ => LendingInv base ads s₀ s) ⟨h.closed, h.registered, fun _ _ => Nat.le_refl _⟩ ?_
  intro pre tx post s' r hsplit ih hx
  have hreg : ∀ a ∈ s'.registered, a ∈ ads := by
    intro a ha
    rcases exec_registered hx ha with ha | ⟨capBps, hcall⟩
    · exact ih.registered a ha
    · refine h.added tx ?_ a capBps hcall
      rw [hsplit]
      exact List.mem_append_right _ List.mem_cons_self
  by_cases hcall : Elsewhere tx
  · obtain ⟨world, hworld⟩ := hcall
    have hpassive := h.elsewhere pre tx post hsplit world hworld
    unfold State.exec at hx
    rw [hworld] at hx
    cases hx
    refine ⟨fun b hb => ((hpassive b hb).le_of_noAllowances (ih.closed b hb)).2, hreg, fun b hb => ?_⟩
    have hb' := List.mem_cons_of_mem base.self hb
    exact (ih.kept b hb).trans ((hpassive b hb').le_of_noAllowances (ih.closed b hb')).1
  · obtain ⟨hclosed, hkept⟩ :=
      touches_kept h.lawful h.self_not_mem ih.registered ih.closed ((exec_touches hx).1 hcall)
    exact ⟨hclosed, hreg, fun b hb => (ih.kept b hb).trans (hkept b hb)⟩

/-! ### A bank -/

/-- A protocol at the account `40` that keeps deposits one for one. -/
def bank : Protocols (Address → ℕ) where
  supply w protocol caller amount := do
    revertIf (protocol ≠ 40) ()
    let usdc ← w.usdc.transferFrom 40 caller 40 amount
    pure ⟨usdc, Function.update w.ext caller (w.ext caller + amount)⟩
  withdraw w protocol caller dst amount := do
    revertIf (protocol ≠ 40 ∨ w.ext caller < amount) ()
    let usdc ← w.usdc.transfer 40 dst amount
    pure (⟨usdc, Function.update w.ext caller (w.ext caller - amount)⟩, amount)
  balanceOf w _ account := w.ext account
  convertToAssets _ _ shares := shares

theorem bank_lawful {as : List Address} (hout : (40 : Address) ∉ as) : Lawful bank as := by
  constructor
  · intro w protocol caller amount w' h b hb
    simp only [bank, bind_eq_ok, pure_eq_ok] at h
    obtain ⟨-, -, usdc, htransfer, rfl⟩ := h
    exact .of_transferFrom htransfer
  · intro w protocol caller dst amount w' y h b hb
    simp only [bank, bind_eq_ok, pure_eq_ok, Prod.mk.injEq] at h
    obtain ⟨-, -, usdc, htransfer, rfl, -⟩ := h
    exact .of_transfer (ne_of_mem_of_not_mem hb hout) htransfer

/-- An adapter of each kind. -/
def venues (a : Address) : Venue :=
  if a = 10 then .aaveV3 40 40 else if a = 11 then .compoundV3 40 else .morpho 40

/-- The vault at `1`, before it knows an adapter. -/
def bankBase : Env (Address → ℕ) where
  self := 1
  asset := 2
  codehash _ := 1
  usdcView _ := some 2
  vaultView _ := some 1
  adapterAssets _ _ := 0
  adapterDeploy _ _ _ := .error .innerCall
  adapterWithdraw _ _ _ := .error .innerCall
  rescueToken _ _ _ := .error .innerCall
  maxWithdrawNet := true

/-- The deployed vault; somebody has sent five units to the adapter `11`. -/
def gifted : State (Address → ℕ) :=
  State.initial 1000 500 deployed.exitFeeBps deployed.feeRecipient 20
    ⟨userWorld.usdc.issue 11 5 (by decide +kernel), fun _ => 0⟩

def bankCall (sender : Address) (call : VaultCall (Address → ℕ)) : Tx (VaultCall (Address → ℕ)) :=
  .of sender (.of 10 1000) call

/-- Two adapters are added, `5` deposits ten units and redeems some shares, and what there is is withdrawn. -/
def banking : List (Tx (VaultCall (Address → ℕ))) :=
  [bankCall 20 (.setAdapterCodeHashAllowed 1 true), bankCall 20 (.setAdapterAllowed 10 true),
   bankCall 20 (.setAdapterAllowed 11 true), bankCall 20 (.addAdapter 10 5000), bankCall 20 (.addAdapter 11 10000),
   bankCall 5 (.user (.deposit 10 5)), bankCall 5 (.user (.redeem (4 * 10 ^ 18) 5 5))]

theorem banking_run : LendingRun bank venues bankBase [10, 11] gifted banking where
  lawful := bank_lawful (by decide)
  self_not_mem := by decide
  closed := by
    intro b hb
    obtain rfl | rfl | rfl := by simpa using hb
    all_goals exact fun s => rfl
  registered := fun a ha => by cases ha
  added := by
    intro tx htx a capBps hcall
    simp only [banking, List.mem_cons, List.not_mem_nil, or_false] at htx
    rcases htx with rfl | rfl | rfl | rfl | rfl | rfl | rfl
    all_goals cases hcall
    all_goals decide
  elsewhere := by
    intro pre tx post hsplit world hcall
    have htx : tx ∈ banking := by
      rw [hsplit]
      exact List.mem_append_right _ List.mem_cons_self
    simp only [banking, List.mem_cons, List.not_mem_nil, or_false] at htx
    rcases htx with rfl | rfl | rfl | rfl | rfl | rfl | rfl
    all_goals cases hcall

/-- **What an adapter has of its own stays**, and no allowance is left to take it by. -/
theorem gifts_stay (h : LendingRun P venue base ads s₀ txs) :
    ∀ a ∈ ads,
      s₀.world.usdc.balanceOf a ≤ (run (exec (lending P venue base)) s₀ txs).world.usdc.balanceOf a ∧
      ∀ spender, (run (exec (lending P venue base)) s₀ txs).world.usdc.allowance a spender = 0 :=
  fun a ha => ⟨h.inv.kept a ha, h.inv.closed a (List.mem_cons_of_mem _ ha)⟩

theorem gifts_stay_banking : 5 ≤ (run (exec (lending bank venues bankBase)) gifted banking).world.usdc.balanceOf 11 :=
  (gifts_stay banking_run 11 (by decide)).1

/-! ### Pulls -/

section Pull

variable (hlaw : Lawful P (base.self :: ads)) (hout : base.self ∉ ads) (htrue : Truthful P venue base.self ads)

include hlaw hout htrue

/-- The loop: what remains needed has fallen by no more than what has come, and an active adapter has been seen. -/
theorem pullLoop_covers {is : List AdapterInfo} (his : ∀ i ∈ is, i.adapter ∈ ads) {needed total : ℕ} :
    ∀ {w w' : World V} {remaining remaining' : ℕ} {last last' : Option Address},
      Closed (base.self :: ads) w →
      pullLoop (lending P venue base) needed total w is remaining last = .ok (w', remaining', last') →
      Closed (base.self :: ads) w' ∧ remaining' ≤ remaining ∧
      w.usdc.balanceOf base.self + remaining ≤ w'.usdc.balanceOf base.self + remaining' ∧
      (remaining' ≠ 0 → (last ≠ none ∨ ∃ i ∈ is, i.active = true) → last' ≠ none) ∧
      ∀ b, last' = some b → last = some b ∨ b ∈ ads := by
  induction is with
  | nil =>
    intro w w' remaining remaining' last last' hclosed h
    cases h
    refine ⟨hclosed, Nat.le_refl _, Nat.le_refl _, ?_, fun b hb => .inl hb⟩
    rintro - (hlast | ⟨i, hi, -⟩)
    · exact hlast
    · cases hi
  | cons i is ih =>
    intro w w' remaining remaining' last last' hclosed h
    obtain ⟨hi, hrest⟩ := List.forall_mem_cons.mp his
    unfold State.pullLoop at h
    split at h
    · rename_i hzero
      cases h
      exact ⟨hclosed, Nat.le_refl _, Nat.le_refl _, fun hne => absurd hzero hne, fun b hb => .inl hb⟩
    split at h
    · rename_i hinactive
      obtain ⟨hclosed', hle, hcover, hseen, hlast⟩ := ih hrest hclosed h
      refine ⟨hclosed', hle, hcover, fun hne hsome => hseen hne ?_, hlast⟩
      rcases hsome with hsome | ⟨j, hj, hactive⟩
      · exact .inl hsome
      · rcases List.mem_cons.mp hj with rfl | hj
        · rw [hinactive] at hactive
          cases hactive
        · exact .inr ⟨j, hj, hactive⟩
    obtain ⟨product, -, h⟩ := bind_eq_ok.mp h
    have hlast' : ∀ b, (some i.adapter = some b ∨ b ∈ ads) → last = some b ∨ b ∈ ads := by
      rintro b (hb | hb)
      · cases hb
        exact .inr hi
      · exact .inr hb
    dsimp only at h
    split at h
    · obtain ⟨hclosed', hle, hcover, hseen, hlast⟩ := ih hrest hclosed h
      exact ⟨hclosed', hle, hcover, fun hne _ => hseen hne (.inl (Option.some_ne_none _)), fun b hb => hlast' b (hlast b hb)⟩
    · simp only [bind_eq_ok, inner_eq_ok, Prod.exists, subU_eq_ok] at h
      obtain ⟨w₁, actual, hwithdraw, r₁, ⟨hle₁, rfl⟩, h⟩ := h
      obtain ⟨⟨hclosed₁, -⟩, -, hgot⟩ := lending_withdrawn hlaw hout hclosed hi hwithdraw
      have hgot := hgot htrue
      obtain ⟨hclosed', hle, hcover, hseen, hlast⟩ := ih hrest hclosed₁ h
      exact ⟨hclosed', by omega, by omega, fun hne _ => hseen hne (.inl (Option.some_ne_none _)),
        fun b hb => hlast' b (hlast b hb)⟩

/-- The last step: the last adapter gives what remains, or the call reverts. -/
theorem pullDust_covers {remaining : ℕ} {last : Option Address} (hclosed : Closed (base.self :: ads) w)
    (hlim : remaining < maxWord) (hseen : remaining ≠ 0 → last ≠ none) (hlast : ∀ b, last = some b → b ∈ ads)
    (h : pullDust (lending P venue base) w remaining last = .ok w') :
    w.usdc.balanceOf base.self + remaining ≤ w'.usdc.balanceOf base.self := by
  unfold State.pullDust at h
  split at h
  · have hzero : remaining = 0 := by
      by_contra hne
      exact hseen hne rfl
    cases h
    omega
  · rename_i b
    split at h
    · cases h
      omega
    · simp only [bind_eq_ok, inner_eq_ok, Prod.exists, pure_eq_ok] at h
      obtain ⟨w₁, actual, hwithdraw, rfl⟩ := h
      obtain ⟨-, henough, hgot⟩ := lending_withdrawn hlaw hout hclosed (hlast b rfl) hwithdraw
      have henough := henough hlim.ne
      have hgot := hgot htrue
      omega

/-- A pull that succeeds has brought what was asked for, or what there is. -/
theorem pullProportional_brings {s s' : State V} {g : ℕ} (hclosed : Closed (base.self :: ads) s.world)
    (hreg : ∀ a ∈ s.registered, a ∈ ads) (hg : g < maxWord)
    (h : s.pullProportional (lending P venue base) g = .ok s') :
    min g (s.idle (lending P venue base) + (s.adapterBalances (lending P venue base)).sum) ≤
      s'.idle (lending P venue base) := by
  unfold State.pullProportional at h
  split at h
  · cases h
    omega
  split at h
  · cases h
    omega
  obtain ⟨total, htotal, h⟩ := bind_eq_ok.mp h
  obtain ⟨-, rfl⟩ := (sumU_eq_ok (by decide)).mp htotal
  rw [Nat.zero_add] at h
  split at h
  · cases h
    omega
  · rename_i hidle hzero
    simp only [bind_eq_ok, Prod.exists, pure_eq_ok] at h
    obtain ⟨w₁, remaining, last, hloop, w₂, hdust, rfl⟩ := h
    have his : ∀ i ∈ s.adapters, i.adapter ∈ ads := fun i hi => hreg _ (List.mem_map_of_mem hi)
    obtain ⟨hclosed₁, hle, hcover, hseen, hlast⟩ := pullLoop_covers hlaw hout htrue his hclosed hloop
    -- some adapter reports something, so one is active
    have hactive : ∃ i ∈ s.adapters, i.active = true := by
      by_contra hnone
      have hfilter : s.adapters.filter (fun i => i.active) = [] := by
        refine List.filter_eq_nil_iff.mpr fun i hi hi' => hnone ⟨i, hi, hi'⟩
      refine hzero ?_
      unfold State.adapterBalances State.activeAdapters
      rw [hfilter]
      rfl
    have hlast' : ∀ b, last = some b → b ∈ ads := fun b hb => (hlast b hb).resolve_left nofun
    have hdusted := pullDust_covers hlaw hout htrue hclosed₁ (by omega) (fun hne => hseen hne (.inr hactive))
      hlast' hdust
    have hself : s.idle (lending P venue base) = s.world.usdc.balanceOf base.self := rfl
    show _ ≤ w₂.usdc.balanceOf base.self
    omega

end Pull

/-- **A pull covers the withdrawal**, at every point of a run. -/
theorem pull_covers (h : LendingRun P venue base ads s₀ txs) (htrue : Truthful P venue base.self ads) {g : ℕ}
    (hg : g < maxWord) {s' : State V}
    (hpull : (run (exec (lending P venue base)) s₀ txs).pullProportional (lending P venue base) g = .ok s') :
    min g ((run (exec (lending P venue base)) s₀ txs).idle (lending P venue base) +
        ((run (exec (lending P venue base)) s₀ txs).adapterBalances (lending P venue base)).sum) ≤
      s'.idle (lending P venue base) :=
  pullProportional_brings h.lawful h.self_not_mem htrue h.inv.closed h.inv.registered hg hpull

/-- The vault after the calls, and after a pull of three units. -/
def banked : State (Address → ℕ) := run (exec (lending bank venues bankBase)) gifted banking

def pulled : State (Address → ℕ) :=
  match banked.pullProportional (lending bank venues bankBase) 3 with
  | .ok s => s
  | .error _ => banked

theorem pull_covers_banked : 3 ≤ pulled.idle (lending bank venues bankBase) := by
  have htrue : Truthful bank venues bankBase.self [10, 11] := by
    intro a ha pool aToken hvenue w x w' y h
    simp only [bank, bind_eq_ok, pure_eq_ok, Prod.mk.injEq] at h
    obtain ⟨-, -, usdc, htransfer, rfl, rfl⟩ := h
    obtain ⟨-, -, hv, rfl⟩ := Token.transfer_eq_ok.mp htransfer
    exact (Token.moved_dst (by decide)).ge
  have hpull : banked.pullProportional (lending bank venues bankBase) 3 = .ok pulled := rfl
  have hthere : 3 ≤ banked.idle (lending bank venues bankBase) +
      (banked.adapterBalances (lending bank venues bankBase)).sum := by decide +kernel
  exact (le_min (Nat.le_refl 3) hthere).trans (pull_covers banking_run htrue (by decide) hpull)

end RobotMoney.Vault
