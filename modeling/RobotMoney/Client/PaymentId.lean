import RobotMoney.Client.ReturnData
import RobotMoney.Gateway.Basic
import RobotMoney.Lib.Hex

/-!
# Payment ids in bytes

The client hashes six words that it puts together itself, the gateway hashes what `abi.encode` makes of the six
values.  The bytes are the same (`computePaymentId_eq`), for every hash function, and they determine the values
(`abiEncodeSequence_injective`); so does the text of a hash that is a key of the replay cache (`hex_injective`).
-/

namespace RobotMoney.Client.Replay

open RobotMoney.Lib
open RobotMoney.Gateway (Bytes32)

/-! ### The client -/

abbrev B256 : Type := BitVec 256

abbrev U256 : Type := BitVec 256

/-- What a payment id is derived from. -/
structure Payment where
  chainId : UInt64
  gateway : Address
  agent : Address
  orderId : B256
  amount : U256
  idempotencyKey : B256
  deriving DecidableEq

/-- The arguments of an insert. -/
structure PaymentIdInputs extends Payment where
  deadline : UInt64
  txHash : String
  deriving DecidableEq

/-- `to_be_bytes` of a `U256`, and the bytes of a `B256` -/
def toBeBytes (x : BitVec 256) : List UInt8 := Abi.wordBytes 32 x.toNat

/-- `Address::into_word` -/
def intoWord (a : Address) : List UInt8 := List.replicate 12 0 ++ Abi.wordBytes 20 (Fin.val a)

/-- `abi_encode_sequence`, of the tuple that is hashed -/
def Payment.abiEncodeSequence (p : Payment) : List UInt8 :=
  [toBeBytes (BitVec.ofNat 256 p.chainId.toNat), intoWord p.gateway, intoWord p.agent, toBeBytes p.orderId,
    toBeBytes p.amount, toBeBytes p.idempotencyKey].flatten

/-- `{:#x}` of thirty-two bytes -/
def hex (h : B256) : String := "0x" ++ String.ofList (hexWord 64 h.toNat)

section Hash

variable (keccak256 : List UInt8 → B256)

def computePaymentId (p : Payment) : B256 := keccak256 p.abiEncodeSequence

/-- `format!("{payment_id:#x}")` -/
def key (p : Payment) : String := hex (computePaymentId keccak256 p)

/-! ### The gateway -/

/-- `bytes32`, any word -/
def bytes32 : Abi.Codec B256 := Abi.single (fun _ => True) BitVec.toNat fun n => some (BitVec.ofNat 256 n)

open Abi Abi.Fields in
/-- `(block.chainid, address(this), msg.sender, orderId, amount, idempotencyKey)` -/
def paymentFields : Fields (ℕ × Address × Address × B256 × ℕ × B256 × Unit) :=
  cons uint256 (cons address (cons address (cons bytes32 (cons uint256 (cons bytes32 nil)))))

open Abi Abi.Fields in
/-- `(agent, depositor, salt)` -/
def commitFields : Fields (Address × Address × B256 × Unit) :=
  cons address (cons address (cons bytes32 nil))

/-- `abi.encode` -/
def abiEncode {α : Type} (f : Abi.Fields α) (a : α) : List UInt8 := Abi.unpack (f.returns a)

/-- The thirty-two bytes that a symbolic value stands for. -/
def valueOf : Bytes32 → B256
  | .word n => BitVec.ofNat 256 n
  | .paymentHash chainid gateway agent orderId amount idempotencyKey =>
    keccak256 (abiEncode paymentFields
      (chainid, gateway, agent, valueOf orderId, amount, valueOf idempotencyKey, ()))
  | .commitHash agent depositor salt =>
    keccak256 (abiEncode commitFields (agent, depositor, valueOf salt, ()))

end Hash

/-! ### Words -/

theorem address_lt (a : Address) : Fin.val a < 256 ^ 20 := Fin.is_lt a

theorem intoWord_eq (a : Address) : intoWord a = Abi.wordBytes 32 (Fin.val a) :=
  (Abi.wordBytes_add (address_lt a) 12).symm

theorem toBeBytes_ofNat {n : ℕ} (h : n < 2 ^ 256) : toBeBytes (BitVec.ofNat 256 n) = Abi.wordBytes 32 n := by
  rw [toBeBytes, BitVec.toNat_ofNat, Nat.mod_eq_of_lt h]

theorem toBeBytes_injective : Function.Injective toBeBytes := by
  intro x y h
  exact BitVec.eq_of_toNat_eq (Abi.wordBytes_inj x.isLt y.isLt h)

theorem intoWord_injective : Function.Injective intoWord := by
  intro a b h
  rw [intoWord_eq, intoWord_eq] at h
  exact Fin.ext (Abi.wordBytes_inj ((address_lt a).trans (by decide)) ((address_lt b).trans (by decide)) h)

/-- The encoding has the six values. -/
theorem abiEncodeSequence_injective : Function.Injective Payment.abiEncodeSequence := by
  rintro ⟨c, g, a, o, m, k⟩ ⟨c', g', a', o', m', k'⟩ h
  have hword : ∀ x : BitVec 256, (toBeBytes x).length = 32 := fun x => Abi.length_wordBytes 32 _
  have hinto : ∀ a : Address, (intoWord a).length = 32 := fun a => by
    rw [intoWord_eq, Abi.length_wordBytes]
  simp only [Payment.abiEncodeSequence, List.flatten_cons, List.flatten_nil, List.append_nil] at h
  obtain ⟨hc, h⟩ := List.append_inj h (by rw [hword, hword])
  obtain ⟨hg, h⟩ := List.append_inj h (by rw [hinto, hinto])
  obtain ⟨ha, h⟩ := List.append_inj h (by rw [hinto, hinto])
  obtain ⟨ho, h⟩ := List.append_inj h (by rw [hword, hword])
  obtain ⟨hm, hk⟩ := List.append_inj h (by rw [hword, hword])
  have hchain : c.toNat = c'.toNat := by
    have hlt : ∀ d : UInt64, d.toNat < 2 ^ 256 := fun d => d.toNat_lt.trans (by decide)
    have hval := congrArg BitVec.toNat (toBeBytes_injective hc)
    rwa [BitVec.toNat_ofNat, BitVec.toNat_ofNat, Nat.mod_eq_of_lt (hlt c), Nat.mod_eq_of_lt (hlt c')] at hval
  rw [UInt64.toNat_inj.mp hchain, intoWord_injective hg, intoWord_injective ha, toBeBytes_injective ho,
    toBeBytes_injective hm, toBeBytes_injective hk]

theorem hex_injective : Function.Injective hex := by
  intro x y h
  have hdigits : hexWord 64 x.toNat = hexWord 64 y.toNat :=
    String.ofList_injective (String.append_right_inj _ |>.mp h)
  have hlt : ∀ z : B256, z.toNat < 16 ^ 64 := fun z => z.isLt.trans_le (by decide)
  exact BitVec.eq_of_toNat_eq (hexWord_inj (hlt x) (hlt y) hdigits)

/-! ### The two hashes -/

variable {V : Type} {keccak256 : List UInt8 → B256} {env : Gateway.Env V} {agent : Address}
  {orderId idempotencyKey : Bytes32} {amount : ℕ}

/-- The client's payment, for the arguments of a deposit. -/
def paymentOf (keccak256 : List UInt8 → B256) (env : Gateway.Env V) (agent : Address) (orderId : Bytes32)
    (amount : ℕ) (idempotencyKey : Bytes32) : Payment where
  chainId := UInt64.ofNat env.chainid
  gateway := env.self
  agent
  orderId := valueOf keccak256 orderId
  amount := BitVec.ofNat 256 amount
  idempotencyKey := valueOf keccak256 idempotencyKey

/-- **The client computes the gateway's payment id**, on a chain whose id fits `u64`. -/
theorem computePaymentId_eq (hchain : env.chainid < 2 ^ 64) (hamount : amount < 2 ^ 256) :
    computePaymentId keccak256 (paymentOf keccak256 env agent orderId amount idempotencyKey) =
      valueOf keccak256 (Gateway.State.paymentId env agent orderId amount idempotencyKey) := by
  have hid : env.chainid < 2 ^ 256 := hchain.trans (by decide)
  have hbytes : (paymentOf keccak256 env agent orderId amount idempotencyKey).abiEncodeSequence =
      abiEncode paymentFields (env.chainid, env.self, agent, valueOf keccak256 orderId, amount,
        valueOf keccak256 idempotencyKey, ()) := by
    unfold Payment.abiEncodeSequence paymentOf
    rw [UInt64.toNat_ofNat_of_lt' hchain, toBeBytes_ofNat hid, toBeBytes_ofNat hamount, intoWord_eq, intoWord_eq]
    rfl
  exact congrArg keccak256 hbytes

/-! ### Two payments -/

def mockPayment (amount : U256) : Payment where
  chainId := 1
  gateway := 1
  agent := 2
  orderId := 0xaaaaaaaaaaaaaaaaaaaaaaaaaaaaaaaaaaaaaaaaaaaaaaaaaaaaaaaaaaaaaaaa
  amount
  idempotencyKey := 0xbbbbbbbbbbbbbbbbbbbbbbbbbbbbbbbbbbbbbbbbbbbbbbbbbbbbbbbbbbbbbbbb

/-- The hashes of the payments of 1000000 and of 999999. -/
def mockKeccak256 (bytes : List UInt8) : B256 :=
  if bytes = (mockPayment 1000000).abiEncodeSequence then
    0xc45ec02fb738f3acc478063deb00d94a86fd137d5e332ddb5dd97be0282f45cc
  else if bytes = (mockPayment 999999).abiEncodeSequence then
    0xc2a4fa692a8838dbb40228e5218e1a34126bf2a78b4698816e59c952a353df74
  else 0

theorem mockPayment_ne : (mockPayment 999999).abiEncodeSequence ≠ (mockPayment 1000000).abiEncodeSequence :=
  fun h => absurd (abiEncodeSequence_injective h) (by decide)

theorem mockKeccak256_ne : computePaymentId mockKeccak256 (mockPayment 999999) ≠
    computePaymentId mockKeccak256 (mockPayment 1000000) := by
  unfold computePaymentId mockKeccak256
  rw [if_neg mockPayment_ne, if_pos rfl, if_pos rfl]
  decide

end RobotMoney.Client.Replay
