import RobotMoney.Indexer.EventCodec
import RobotMoney.Lib.Hex

/-!
# The node's answers

`rpc.rs`: headers, transactions and logs are read out of JSON, field by field, every number and every string
of bytes as hexadecimal text.  A field that is missing, or is no string, counts as `0x0` where a number is
read and as `0x` where bytes are; so a missing number is a zero, and a missing hash is an error.

`DescribesLog`, `DescribesHeader`, `DescribesTx` say what a node writes for a log, a header, a transaction, among
whatever else; `getLogs_read` and `blockWithTxs_read` that it is read back, and `events_read` that events
arrive as the contracts emitted them.  The transport and the texts of the hexadecimal library's errors are
left out: an error is the name of the field.
-/

namespace RobotMoney.Indexer.JsonRpc

open RobotMoney.Lib RobotMoney.Lib.Abi

/-! ### JSON -/

/-- `serde_json::Value` -/
inductive Json where
  | null
  | bool (b : Bool)
  | number (n : ℤ)
  | string (s : List Char)
  | array (values : List Json)
  | object (fields : List (String × Json))

def Json.get (j : Json) (key : String) : Option Json :=
  match j with
  | .object fields => fields.lookup key
  | _ => none

def Json.asStr : Json → Option (List Char)
  | .string s => some s
  | _ => none

def Json.asArray : Json → Option (List Json)
  | .array values => some values
  | _ => none

/-- `v.get(key).and_then(|x| x.as_str()).unwrap_or(default)` -/
def Json.strOr (j : Json) (key : String) (default : String) : List Char :=
  ((j.get key).bind Json.asStr).getD default.toList

/-! ### Hexadecimal text -/

/-- `trim_start_matches("0x")` -/
def trim0x : List Char → List Char
  | '0' :: 'x' :: cs => trim0x cs
  | cs => cs

/-- `u64::from_str_radix(s, 16)` -/
def u64FromHex (cs : List Char) : Option ℕ :=
  let digits := if cs.head? = some '+' then cs.tail else cs
  if digits = [] then none else (readHex digits).filter fun n => decide (n < 2 ^ 64)

/-- `hex::decode` -/
def hexDecode : List Char → Option (List UInt8)
  | [] => some []
  | [_] => none
  | a :: b :: cs => do
    let high ← hexDigitValue a
    let low ← hexDigitValue b
    let bytes ← hexDecode cs
    some (UInt8.ofNat (16 * high + low) :: bytes)

def parseU64Hex (method : String) (s : List Char) : Except String ℕ :=
  match u64FromHex (trim0x s) with
  | some n => .ok n
  | none => .error method

/-- `decode_hex_bytes` -/
def decodeHexBytes (method : String) (s : List Char) : Except String (List UInt8) :=
  match hexDecode (trim0x s) with
  | some bytes => .ok bytes
  | none => .error method

/-- `parse_b256`: a word. -/
def parseB256 (method : String) (s : List Char) : Except String ℕ := do
  let bytes ← decodeHexBytes method s
  if bytes.length = 32 then .ok (bytesWord 32 bytes) else .error method

def parseAddress (method : String) (s : List Char) : Except String Address := do
  let bytes ← decodeHexBytes method s
  if bytes.length = 20 then .ok ⟨bytesWord 20 bytes, (bytesWord_lt 20 bytes).trans_le (by norm_num)⟩
  else .error method

/-! ### Answers -/

/-- `BlockHeader`, with hashes as words. -/
structure HeaderRow where
  number : ℕ
  hash : ℕ
  parentHash : ℕ
  timestamp : ℕ

/-- `LogEntry` -/
structure LogRow where
  address : Address
  raw : RawLog
  blockNumber : ℕ
  blockHash : ℕ
  txHash : ℕ
  txIndex : ℕ
  logIndex : ℕ

/-- A `TxRow` before its status is known. -/
structure TxFields where
  txHash : ℕ
  txIndex : ℕ
  src : Address
  dst : Option Address

/-- The header in a block. -/
def headerRow (v : Json) : Except String HeaderRow := do
  let number ← parseU64Hex "eth_getBlockByNumber.number" (v.strOr "number" "0x0")
  let hash ← parseB256 "eth_getBlockByNumber.hash" (v.strOr "hash" "0x")
  let parentHash ← parseB256 "eth_getBlockByNumber.parentHash" (v.strOr "parentHash" "0x")
  let timestamp ← parseU64Hex "eth_getBlockByNumber.timestamp" (v.strOr "timestamp" "0x0")
  .ok ⟨number, hash, parentHash, timestamp⟩

/-- The receiver of a transaction; there is none where the field is no string, or the empty one. -/
def txTo (t : Json) : Except String (Option Address) :=
  match (t.get "to").bind Json.asStr with
  | none => .ok none
  | some [] => .ok none
  | some s => (parseAddress "tx.to" s).map some

/-- The fields of a transaction. -/
def txFields (t : Json) : Except String TxFields := do
  let txHash ← parseB256 "tx.hash" (t.strOr "hash" "0x")
  let txIndex ← parseU64Hex "tx.transactionIndex" (t.strOr "transactionIndex" "0x0")
  let src ← parseAddress "tx.from" (t.strOr "from" "0x")
  let dst ← txTo t
  .ok ⟨txHash, txIndex % 2 ^ 32, src, dst⟩

/-- The status in a receipt. -/
def receiptStatus (v : Json) : Except String ℕ :=
  match v with
  | .null => .ok 0
  | v => do
    let n ← parseU64Hex "receipt.status" (v.strOr "status" "0x0")
    .ok (n % 2 ^ 8)

/-- One topic of a log. -/
def logTopic (t : Json) : Except String ℕ :=
  match t.asStr with
  | none => .error "eth_getLogs"
  | some s => parseB256 "log.topic" s

/-- One log. -/
def logRow (r : Json) : Except String LogRow := do
  let address ← parseAddress "log.address" (r.strOr "address" "0x")
  let topics ← (((r.get "topics").bind Json.asArray).getD []).mapM logTopic
  let data ← decodeHexBytes "log.data" (r.strOr "data" "0x")
  let blockNumber ← parseU64Hex "log.blockNumber" (r.strOr "blockNumber" "0x0")
  let blockHash ← parseB256 "log.blockHash" (r.strOr "blockHash" "0x")
  let txHash ← parseB256 "log.transactionHash" (r.strOr "transactionHash" "0x")
  let txIndex ← parseU64Hex "log.transactionIndex" (r.strOr "transactionIndex" "0x0")
  let logIndex ← parseU64Hex "log.logIndex" (r.strOr "logIndex" "0x0")
  .ok ⟨address, ⟨topics, data⟩, blockNumber, blockHash, txHash, txIndex % 2 ^ 32, logIndex % 2 ^ 32⟩

/-- `get_logs`, with the node's answer. -/
def getLogs (result : Json) : Except String (List LogRow) :=
  match result with
  | .array raw => raw.mapM logRow
  | _ => .error "eth_getLogs"

/-- `block_header`, with the node's answer. -/
def blockHeader (result : Json) : Except String (Option HeaderRow) :=
  match result with
  | .null => .ok none
  | v => (headerRow v).map some

/-- `block_with_txs`, with the node's answers: the block, and for each hash the receipt. -/
def blockWithTxs (result : Json) (receipt : ℕ → Except String Json) :
    Except String (HeaderRow × List (TxFields × ℕ)) :=
  match result with
  | .null => .error "eth_getBlockByNumber"
  | v => do
    let header ← headerRow v
    let txs ← (((v.get "transactions").bind Json.asArray).getD []).mapM fun t => do
      let tx ← txFields t
      let status ← receipt tx.txHash >>= receiptStatus
      .ok (tx, status)
    .ok (header, txs)

/-! ### What nodes write -/

/-- Bytes as text. -/
def hexBytes (bs : List UInt8) : List Char := bs.flatMap fun b => hexWord 2 b.toNat

def bytesText (bs : List UInt8) : List Char := '0' :: 'x' :: hexBytes bs

def wordText (w : ℕ) : List Char := bytesText (wordBytes 32 w)

def addressText (a : Address) : List Char := bytesText (wordBytes 20 a.val)

def quantityText (n : ℕ) : List Char := '0' :: 'x' :: Nat.toDigits 16 n

structure DescribesHeader (j : Json) (h : HeaderRow) : Prop where
  number : j.get "number" = some (.string (quantityText h.number))
  hash : j.get "hash" = some (.string (wordText h.hash))
  parentHash : j.get "parentHash" = some (.string (wordText h.parentHash))
  timestamp : j.get "timestamp" = some (.string (quantityText h.timestamp))

structure DescribesTx (j : Json) (t : TxFields) : Prop where
  hash : j.get "hash" = some (.string (wordText t.txHash))
  transactionIndex : j.get "transactionIndex" = some (.string (quantityText t.txIndex))
  src : j.get "from" = some (.string (addressText t.src))
  dst : j.get "to" = some ((t.dst.map fun a => .string (addressText a)).getD .null)

structure DescribesLog (j : Json) (l : LogRow) : Prop where
  address : j.get "address" = some (.string (addressText l.address))
  topics : j.get "topics" = some (.array (l.raw.topics.map fun w => .string (wordText w)))
  data : j.get "data" = some (.string (bytesText l.raw.data))
  blockNumber : j.get "blockNumber" = some (.string (quantityText l.blockNumber))
  blockHash : j.get "blockHash" = some (.string (wordText l.blockHash))
  transactionHash : j.get "transactionHash" = some (.string (wordText l.txHash))
  transactionIndex : j.get "transactionIndex" = some (.string (quantityText l.txIndex))
  logIndex : j.get "logIndex" = some (.string (quantityText l.logIndex))

/-! ### Texts are read back -/

theorem not_mem_of_readHexFrom {n k : ℕ} {cs : List Char} (h : readHexFrom n cs = some k) {c : Char}
    (hc : hexDigitValue c = none) : c ∉ cs := by
  induction cs generalizing n with
  | nil => exact List.not_mem_nil
  | cons d cs ih =>
    obtain ⟨v, hv, hrest⟩ := Option.bind_eq_some_iff.mp h
    intro hmem
    rcases List.mem_cons.mp hmem with rfl | hmem
    · rw [hc] at hv
      cases hv
    · exact ih hrest hmem

theorem readHex_toDigits (n : ℕ) : readHex (Nat.toDigits 16 n) = some n := by
  induction n using Nat.strong_induction_on with
  | _ n ih =>
    rcases Nat.lt_or_ge n 16 with hn | hn
    · rw [Nat.toDigits_of_lt_base hn]
      simp [readHex, readHexFrom, hexDigitValue_digitChar n hn]
    · have hhigh : readHexFrom 0 (Nat.toDigits 16 (n / 16)) = some (n / 16) := ih (n / 16) (by omega)
      rw [Nat.toDigits_of_base_le (by decide) hn, readHex, readHexFrom_append, hhigh, Option.bind_some]
      simp only [readHexFrom, hexDigitValue_digitChar _ (Nat.mod_lt n (by decide)), bind, Option.bind_some,
        Option.some.injEq]
      omega

theorem hexDecode_hexBytes (bs : List UInt8) : hexDecode (hexBytes bs) = some bs := by
  induction bs with
  | nil => rfl
  | cons b bs ih =>
    have hb := b.toNat_lt
    have hpair : hexBytes (b :: bs) =
        Nat.digitChar (b.toNat / 16 % 16) :: Nat.digitChar (b.toNat % 16) :: hexBytes bs := rfl
    have hbyte : 16 * (b.toNat / 16 % 16) + b.toNat % 16 = b.toNat := by omega
    simp only [hpair, hexDecode, hexDigitValue_digitChar _ (Nat.mod_lt _ (by decide : 0 < 16)), ih, bind,
      Option.bind_some, hbyte, UInt8.ofNat_toNat]

theorem not_mem_hexBytes {bs : List UInt8} {c : Char} (hc : hexDigitValue c = none) : c ∉ hexBytes bs := by
  intro hmem
  obtain ⟨b, -, hword⟩ := List.mem_flatMap.mp hmem
  exact not_mem_of_readHexFrom (readHex_hexWord (w := 2) b.toNat_lt) hc hword

theorem trim0x_eq {cs : List Char} (h : 'x' ∉ cs) : trim0x ('0' :: 'x' :: cs) = cs := by
  rw [trim0x]
  unfold trim0x
  split
  · simp at h
  · rfl

theorem decodeHexBytes_text (method : String) (bs : List UInt8) :
    decodeHexBytes method (bytesText bs) = .ok bs := by
  unfold decodeHexBytes bytesText
  rw [trim0x_eq (not_mem_hexBytes (by decide)), hexDecode_hexBytes]

theorem parseU64Hex_text (method : String) {n : ℕ} (hn : n < 2 ^ 64) :
    parseU64Hex method (quantityText n) = .ok n := by
  have hread := readHex_toDigits n
  have hplus : (Nat.toDigits 16 n).head? ≠ some '+' := by
    intro h
    exact not_mem_of_readHexFrom hread (by decide) (List.mem_of_mem_head? h)
  unfold parseU64Hex quantityText u64FromHex
  rw [trim0x_eq (not_mem_of_readHexFrom hread (by decide)), if_neg hplus, if_neg Nat.toDigits_ne_nil, hread,
    Option.filter_some, if_pos (decide_eq_true hn)]

theorem parseB256_text (method : String) {w : ℕ} (hw : w < 256 ^ 32) : parseB256 method (wordText w) = .ok w := by
  have hword := bytesWord_wordBytes hw []
  rw [List.append_nil] at hword
  simp [parseB256, wordText, decodeHexBytes_text, length_wordBytes, hword, bind, Except.bind]

theorem parseAddress_text (method : String) (a : Address) : parseAddress method (addressText a) = .ok a := by
  have hlt : a.val < 256 ^ 20 := a.isLt.trans_le (by norm_num)
  have hword := bytesWord_wordBytes hlt []
  rw [List.append_nil] at hword
  simp only [parseAddress, addressText, decodeHexBytes_text, length_wordBytes, bind, Except.bind, if_true,
    hword]
  rfl

/-! ### Answers are read back -/

/-- The numbers of a header are in the range of their types. -/
structure HeaderRow.InRange (h : HeaderRow) : Prop where
  number : h.number < 2 ^ 64
  hash : h.hash < 256 ^ 32
  parentHash : h.parentHash < 256 ^ 32
  timestamp : h.timestamp < 2 ^ 64

structure TxFields.InRange (t : TxFields) : Prop where
  txHash : t.txHash < 256 ^ 32
  txIndex : t.txIndex < 2 ^ 32

structure LogRow.InRange (l : LogRow) : Prop where
  blockNumber : l.blockNumber < 2 ^ 64
  blockHash : l.blockHash < 256 ^ 32
  txHash : l.txHash < 256 ^ 32
  txIndex : l.txIndex < 2 ^ 32
  logIndex : l.logIndex < 2 ^ 32

theorem strOr_eq {j : Json} {key : String} {s : List Char} (h : j.get key = some (.string s)) (default : String) :
    j.strOr key default = s := by
  simp [Json.strOr, h, Json.asStr]

/-- A list of answers, each of which is read back. -/
theorem mapM_ok {α β ε : Type} {f : α → Except ε β} {as : List α} {bs : List β}
    (h : List.Forall₂ (fun a b => f a = .ok b) as bs) : as.mapM f = .ok bs := by
  induction h with
  | nil => rfl
  | cons hab _ ih => simp [List.mapM_cons, hab, ih, bind, Except.bind, pure, Except.pure]

theorem headerRow_read {j : Json} {h : HeaderRow} (hj : DescribesHeader j h) (hh : h.InRange) :
    headerRow j = .ok h := by
  unfold headerRow
  rw [strOr_eq hj.number, strOr_eq hj.hash, strOr_eq hj.parentHash, strOr_eq hj.timestamp,
    parseU64Hex_text _ hh.number, parseB256_text _ hh.hash, parseB256_text _ hh.parentHash,
    parseU64Hex_text _ hh.timestamp]
  rfl

theorem txTo_read {j : Json} {dst : Option Address}
    (h : j.get "to" = some ((dst.map fun a => .string (addressText a)).getD .null)) : txTo j = .ok dst := by
  unfold txTo
  rw [h]
  cases dst with
  | none => rfl
  | some a =>
    have htext : parseAddress "tx.to" (addressText a) = .ok a := parseAddress_text _ a
    simp only [Option.map_some, Option.getD_some, Option.bind_some, Json.asStr]
    rw [addressText, bytesText] at htext ⊢
    simp only [htext]
    rfl

theorem txFields_read {j : Json} {t : TxFields} (hj : DescribesTx j t) (ht : t.InRange) : txFields j = .ok t := by
  have hindex : t.txIndex < 2 ^ 64 := ht.txIndex.trans (by norm_num)
  unfold txFields
  rw [strOr_eq hj.hash, strOr_eq hj.transactionIndex, strOr_eq hj.src, parseB256_text _ ht.txHash,
    parseU64Hex_text _ hindex, parseAddress_text, txTo_read hj.dst]
  simp only [bind, Except.bind, Nat.mod_eq_of_lt ht.txIndex]

theorem logRow_read {j : Json} {l : LogRow} (hj : DescribesLog j l) (hl : l.InRange)
    (hwords : ∀ w ∈ l.raw.topics, w < 256 ^ 32) : logRow j = .ok l := by
  have htopics : (l.raw.topics.map fun w => Json.string (wordText w)).mapM logTopic = .ok l.raw.topics := by
    refine mapM_ok (List.forall₂_map_left_iff.mpr (List.forall₂_same.mpr fun w hw => ?_))
    exact parseB256_text _ (hwords w hw)
  have hindex : l.txIndex < 2 ^ 64 := hl.txIndex.trans (by norm_num)
  have hlog : l.logIndex < 2 ^ 64 := hl.logIndex.trans (by norm_num)
  unfold logRow
  rw [strOr_eq hj.address, strOr_eq hj.data, strOr_eq hj.blockNumber, strOr_eq hj.blockHash,
    strOr_eq hj.transactionHash, strOr_eq hj.transactionIndex, strOr_eq hj.logIndex, hj.topics, parseAddress_text,
    decodeHexBytes_text, parseU64Hex_text _ hl.blockNumber, parseB256_text _ hl.blockHash,
    parseB256_text _ hl.txHash, parseU64Hex_text _ hindex, parseU64Hex_text _ hlog]
  simp only [bind, Except.bind, Option.bind_some, Json.asArray, Option.getD_some, htopics,
    Nat.mod_eq_of_lt hl.txIndex, Nat.mod_eq_of_lt hl.logIndex]

theorem getLogs_read {js : List Json} {ls : List LogRow} (h : List.Forall₂ DescribesLog js ls)
    (hls : ∀ l ∈ ls, l.InRange ∧ ∀ w ∈ l.raw.topics, w < 256 ^ 32) : getLogs (.array js) = .ok ls := by
  refine mapM_ok ?_
  induction h with
  | nil => exact .nil
  | cons hj _ ih =>
    rw [List.forall_mem_cons] at hls
    exact .cons (logRow_read hj hls.1.1 hls.1.2) (ih hls.2)

theorem receiptStatus_read {j : Json} {status : ℕ} (hnull : j ≠ .null)
    (hj : j.get "status" = some (.string (quantityText status))) (hstatus : status < 2 ^ 8) :
    receiptStatus j = .ok status := by
  have hlt : status < 2 ^ 64 := hstatus.trans (by norm_num)
  unfold receiptStatus
  split
  · exact absurd rfl hnull
  · rw [strOr_eq hj, parseU64Hex_text _ hlt]
    simp only [bind, Except.bind, Nat.mod_eq_of_lt hstatus]

/-- What a node writes for a transaction and, asked for its receipt, for its status. -/
structure DescribesTxRow (receipt : ℕ → Except String Json) (j : Json) (row : TxFields × ℕ) : Prop where
  fields : DescribesTx j row.1
  status : ∃ r, receipt row.1.txHash = .ok r ∧ r ≠ .null ∧ r.get "status" = some (.string (quantityText row.2))
  inRange : row.1.InRange
  status_lt : row.2 < 2 ^ 8

/-- **A block with its transactions is read back.** -/
theorem blockWithTxs_read {receipt : ℕ → Except String Json} {j : Json} {header : HeaderRow} {txs : List Json}
    {rows : List (TxFields × ℕ)} (hheader : DescribesHeader j header) (hrange : header.InRange)
    (htxs : j.get "transactions" = some (.array txs)) (hrows : List.Forall₂ (DescribesTxRow receipt) txs rows) :
    blockWithTxs j receipt = .ok (header, rows) := by
  have hlist : txs.mapM (fun t => do
      let tx ← txFields t
      let status ← receipt tx.txHash >>= receiptStatus
      .ok (tx, status)) = .ok rows := by
    refine mapM_ok (hrows.imp fun t row hrow => ?_)
    obtain ⟨r, hr, hnull, hstatus⟩ := hrow.status
    rw [txFields_read hrow.fields hrow.inRange]
    simp only [bind, Except.bind, hr, receiptStatus_read hnull hstatus hrow.status_lt]
  unfold blockWithTxs
  split
  · cases hheader.number
  · rw [headerRow_read hheader hrange, htxs]
    simp only [bind, Except.bind, Option.bind_some, Json.asArray, Option.getD_some] at hlist ⊢
    rw [hlist]

/-! ### Events -/

variable {keccak256 : String → ℕ}

/-- **Events arrive as they were emitted**: what the service sees in a node's answer, for the logs of any list
of events at any places of any blocks, is that list. -/
theorem events_read (hkeccak : Distinct keccak256) {js : List Json} {ls : List LogRow} {es : List Event}
    (hjs : List.Forall₂ DescribesLog js ls) (hls : ∀ l ∈ ls, l.InRange)
    (hes : List.Forall₂ (fun l e => e.Fits ∧ l.raw = emit keccak256 e) ls es) :
    (getLogs (.array js)).map (fun rows => rows.map fun l => readLog keccak256 l.raw) =
      .ok (es.map LogData.event) := by
  have hwords : ∀ l ∈ ls, ∀ w ∈ l.raw.topics, w < 256 ^ 32 := by
    clear hjs hls
    induction hes with
    | nil => simp
    | cons hle _ ih =>
      rw [List.forall_mem_cons, hle.2]
      exact ⟨emit_topics_lt hkeccak hle.1, ih⟩
  rw [getLogs_read hjs fun l hl => ⟨hls l hl, hwords l hl⟩]
  have hread : ls.map (fun l => readLog keccak256 l.raw) = es.map LogData.event := by
    clear hjs hls hwords
    induction hes with
    | nil => rfl
    | cons hle _ ih => rw [List.map_cons, List.map_cons, ih, hle.2, readLog_emit hkeccak hle.1]
  exact congrArg Except.ok hread

/-- The log of a revocation, and what a node writes for it. -/
def revocation : LogRow := ⟨3, emit signatureHash (.agentRevoked 7 9), 20, 5, 6, 1, 2⟩

def revocationJson : Json := .object
  [("address", .string (addressText 3)), ("removed", .bool false),
    ("topics", .array (revocation.raw.topics.map fun w => .string (wordText w))),
    ("data", .string "0x".toList), ("blockNumber", .string "0x14".toList),
    ("blockHash", .string (wordText 5)), ("transactionHash", .string (wordText 6)),
    ("transactionIndex", .string "0x1".toList), ("logIndex", .string "0x2".toList)]

theorem revocation_described : DescribesLog revocationJson revocation :=
  ⟨rfl, rfl, rfl, rfl, rfl, rfl, rfl, rfl⟩

theorem revocation_inRange : revocation.InRange :=
  ⟨by decide, by decide, by decide, by decide, by decide⟩

theorem revocation_fits : (Event.agentRevoked 7 9).Fits :=
  ⟨.agentRevoked, (7, 9, ()), (), rfl, rfl, ⟨trivial, trivial, trivial⟩, trivial, nofun⟩

theorem events_read_revocation :
    (getLogs (.array [revocationJson])).map (fun rows => rows.map fun l => readLog signatureHash l.raw) =
      .ok [.event (.agentRevoked 7 9)] :=
  @events_read _ signatureHash_distinct _ [revocation] [.agentRevoked 7 9]
    (.cons revocation_described .nil) (by simpa using revocation_inRange)
    (.cons ⟨revocation_fits, rfl⟩ .nil)

end RobotMoney.Indexer.JsonRpc
