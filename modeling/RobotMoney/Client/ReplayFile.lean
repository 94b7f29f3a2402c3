import RobotMoney.Api.Routes
import RobotMoney.Client.PaymentId
import RobotMoney.Lib.Latest
import RobotMoney.Lib.Program

/-!
# The file of the replay cache

`replay_cache.rs`: the submitted payments are a list in one JSON file, and every operation reads the file again
under an advisory lock.  An operation is a program whose questions are the calls it makes of the file system; a
call is answered by what the file holds and by where the handle of the operation stands in it.

Run alone, from a file that can be read, a lookup finds the entry with the payment id, and an insert leaves a
file where that entry is replaced and the others are as they were (`lookup_exec`, `insert_exec`).
-/

namespace RobotMoney.Client.Replay

open RobotMoney.Lib
open RobotMoney.Api (trim)

/-! ### The file -/

structure Entry where
  paymentId : String
  orderId : String
  idempotencyKey : String
  deadline : UInt64
  txHash : String
  deriving DecidableEq

structure ReplayFile where
  version : UInt32
  entries : List Entry
  deriving DecidableEq

/-- What is used of `serde_json`, for the file, with the texts of its errors. -/
structure SerdeJson where
  fromStr : String → Except String ReplayFile
  toStringPretty : ReplayFile → Except String String

/-- The variants of `RmpcError` that the cache returns. -/
inductive RmpcError where
  | errIo (e : String)
  | errConfig (message : String)
  deriving DecidableEq

abbrev EntryMap : Type := Std.HashMap String Entry

/-- `map.insert(entry.payment_id.clone(), entry)` for each entry -/
def fromEntries (entries : List Entry) : EntryMap := entries.foldl (fun m e => m.insert e.paymentId e) ∅

/-- What is made of a text that is read. -/
def parse (sd : SerdeJson) (buf : String) : Except RmpcError EntryMap :=
  if trim buf.toList = [] then .ok ∅
  else
    match sd.fromStr buf with
    | .ok parsed => .ok (fromEntries parsed.entries)
    | .error e => .error (.errConfig ("replay cache: failed to parse: " ++ e))

/-- The payload of `write_back`. -/
def payload (map : EntryMap) : ReplayFile where
  version := 2
  entries := (map.toList.map Prod.snd).mergeSort fun a b => decide (a.paymentId ≤ b.paymentId)

/-! ### Calls of the file system -/

/-- The calls, on the file of the cache. -/
inductive Io where
  | pathExists
  /-- for reading and writing -/
  | openFile (create : Bool)
  | lockShared
  | lockExclusive
  | readToString
  | setLen (size : ℕ)
  | seek (pos : ℕ)
  | writeAll (bytes : List UInt8)
  | flush
  | unlock

/-- What a call returns; an error is its text. -/
abbrev Io.Answer : Io → Type
  | .pathExists => Bool
  | .readToString => Except String String
  | _ => Except String Unit

/-- The file as one handle sees it: its bytes, if it is there, and the position of the handle. -/
structure Handle where
  content : Option (List UInt8)
  cursor : ℕ

def utf8 (text : String) : List UInt8 := text.toByteArray.data.toList

def fromUtf8 (bytes : List UInt8) : Except String String :=
  match String.fromUTF8? ⟨bytes.toArray⟩ with
  | some text => .ok text
  | none => .error "stream did not contain valid UTF-8"

/-- The bytes of a file of a given size: cut off, or with zeros at the end. -/
def resize (size : ℕ) (old : List UInt8) : List UInt8 :=
  old.take size ++ List.replicate (size - old.length) 0

/-- Bytes written at a position. -/
def overwrite (pos : ℕ) (bytes old : List UInt8) : List UInt8 :=
  resize pos old ++ bytes ++ old.drop (pos + bytes.length)

/-- A write, and what the handle sees then. -/
def Handle.write (f : Handle) (bytes : List UInt8) : Handle :=
  ⟨f.content.map (overwrite f.cursor bytes), f.cursor + bytes.length⟩

/-- A call that the file system does not fail. -/
def call : (q : Io) → Handle → q.Answer × Handle
  | .pathExists, f => (f.content.isSome, f)
  | .openFile create, f =>
    match f.content with
    | some content => (.ok (), ⟨some content, 0⟩)
    | none => if create then (.ok (), ⟨some [], 0⟩) else (.error "No such file or directory (os error 2)", f)
  | .readToString, f =>
    let old := f.content.getD []
    (fromUtf8 (old.drop f.cursor), ⟨f.content, max f.cursor old.length⟩)
  | .setLen size, f => (.ok (), ⟨f.content.map (resize size), f.cursor⟩)
  | .seek pos, f => (.ok (), ⟨f.content, pos⟩)
  | .writeAll bytes, f => (.ok (), f.write bytes)
  | .lockShared, f | .lockExclusive, f | .flush, f | .unlock, f => (.ok (), f)

/-! ### The operations -/

/-- What an operation returns. -/
inductive Outcome where
  | found (txHash : Option String)
  | inserted
  | failed (e : RmpcError)
  deriving DecidableEq

abbrev Operation : Type := Program Io Io.Answer Outcome

section Operations

variable (keccak256 : List UInt8 → B256) (sd : SerdeJson)

/-- A text that is read, or the error of the call, as a map. -/
def parseRead (r : Except String String) : Except RmpcError EntryMap := (r.mapError .errIo).bind (parse sd)

def readLocked (k : Except RmpcError EntryMap → Operation) : Operation :=
  .ask .pathExists fun present =>
    if present = false then k (.ok ∅)
    else .ask (.openFile false) fun
      | .error e => k (.error (.errIo e))
      | .ok _ => .ask .lockShared fun
        | .error e => k (.error (.errIo e))
        | .ok _ => .ask .readToString fun r => .ask .unlock fun _ => k (parseRead sd r)

def writeBack (map : EntryMap) (k : Except RmpcError Unit → Operation) : Operation :=
  match sd.toStringPretty (payload map) with
  | .error e => k (.error (.errConfig e))
  | .ok json => .ask (.setLen 0) fun
    | .error e => k (.error (.errIo e))
    | .ok _ => .ask (.seek 0) fun
      | .error e => k (.error (.errIo e))
      | .ok _ => .ask (.writeAll (utf8 json)) fun
        | .error e => k (.error (.errIo e))
        | .ok _ => .ask .flush fun
          | .error e => k (.error (.errIo e))
          | .ok _ => k (.ok ())

def withLockedFile (f : EntryMap → (Except RmpcError Unit → Operation) → Operation)
    (k : Except RmpcError Unit → Operation) : Operation :=
  .ask (.openFile true) fun
    | .error e => k (.error (.errIo e))
    | .ok _ => .ask .lockExclusive fun
      | .error e => k (.error (.errIo e))
      | .ok _ => .ask .readToString fun r =>
        match parseRead sd r with
        | .error e => .ask .unlock fun _ => k (.error e)
        | .ok map => f map fun res => .ask .unlock fun _ => k res

/-- What a lookup makes of what it has read. -/
def answerOf (p : Payment) : Except RmpcError EntryMap → Outcome
  | .error e => .failed e
  | .ok map => .found (map[key keccak256 p]?.map Entry.txHash)

def lookup (p : Payment) : Operation := readLocked sd fun r => .done (answerOf keccak256 p r)

/-- The entry of a payment. -/
def entry (x : PaymentIdInputs) : Entry :=
  ⟨key keccak256 x.toPayment, hex x.orderId, hex x.idempotencyKey, x.deadline, x.txHash⟩

/-- The map with the entry, in place of one with its key. -/
def inserted (x : PaymentIdInputs) (map : EntryMap) : EntryMap :=
  map.insert (key keccak256 x.toPayment) (entry keccak256 x)

def resultOf : Except RmpcError Unit → Outcome
  | .error e => .failed e
  | .ok _ => .inserted

def insert (x : PaymentIdInputs) : Operation :=
  withLockedFile sd (fun map => writeBack sd (inserted keccak256 x map)) fun r => .done (resultOf r)

end Operations

/-! ### What a file holds -/

/-- The cache that an operation reads from a file. -/
def cacheOf (sd : SerdeJson) (content : Option (List UInt8)) : Except RmpcError EntryMap :=
  parseRead sd (fromUtf8 (content.getD []))

/-- What the file type is written as is read again, and what is blank is no file. -/
structure SerdeJson.RoundTrips (sd : SerdeJson) : Prop where
  reads : ∀ file, ∃ json, sd.toStringPretty file = .ok json ∧ sd.fromStr json = .ok file
  notBlank : ∀ json file, sd.fromStr json = .ok file → trim json.toList ≠ []

/-- Besides, what is written cannot be read when its end is missing. -/
structure SerdeJson.Lawful (sd : SerdeJson) : Prop extends sd.RoundTrips where
  cut : ∀ file json text, sd.toStringPretty file = .ok json → utf8 text <+: utf8 json → text ≠ json →
    ∀ file', sd.fromStr text ≠ .ok file'

/-- The entries are under their payment ids. -/
def Keyed (map : EntryMap) : Prop := ∀ (k : String) (e : Entry), map[k]? = some e → e.paymentId = k

section Maps

variable {sd : SerdeJson} {map : EntryMap} {entries : List Entry} {k : String} {e : Entry}
  {content : Option (List UInt8)}

theorem fromUtf8_utf8 (text : String) : fromUtf8 (utf8 text) = .ok text := by
  have htext : String.fromUTF8? ⟨(utf8 text).toArray⟩ = some text := dif_pos text.isValidUTF8
  unfold fromUtf8
  rw [htext]

/-- An entry is under its payment id, the last one if there are several. -/
theorem getElem?_fromEntries (entries : List Entry) (k : String) :
    (fromEntries entries)[k]? = latest Entry.paymentId k entries := by
  induction entries using List.reverseRecOn with
  | nil => exact Std.HashMap.getElem?_empty
  | append_singleton entries e ih =>
    have hsnoc : fromEntries (entries ++ [e]) = (fromEntries entries).insert e.paymentId e := by
      simp [fromEntries]
    rw [hsnoc, Std.HashMap.getElem?_insert]
    by_cases hk : e.paymentId = k
    · rw [latest_snoc_of_eq hk, if_pos (beq_iff_eq.mpr hk)]
    · rw [latest_snoc_of_ne hk, if_neg (by simpa using hk), ih]

theorem keyed_fromEntries (entries : List Entry) : Keyed (fromEntries entries) := by
  intro k e h
  rw [getElem?_fromEntries] at h
  exact (latest_mem h).2

theorem Keyed.insert (h : Keyed map) (e : Entry) : Keyed (map.insert e.paymentId e) := by
  intro k e' he'
  rw [Std.HashMap.getElem?_insert] at he'
  split at he'
  · next hk =>
    cases he'
    exact beq_iff_eq.mp hk
  · exact h k e' he'

theorem mem_payload (h : Keyed map) : e ∈ (payload map).entries ↔ map[e.paymentId]? = some e := by
  unfold payload
  simp only [List.mem_mergeSort, List.mem_map, Prod.exists, exists_eq_right]
  constructor
  · rintro ⟨k, hk⟩
    have hget := Std.HashMap.mem_toList_iff_getElem?_eq_some.mp hk
    rwa [h k e hget]
  · intro hget
    exact ⟨e.paymentId, Std.HashMap.mem_toList_iff_getElem?_eq_some.mpr hget⟩

/-- What is written back and read again is the map. -/
theorem getElem?_payload (h : Keyed map) (k : String) :
    (fromEntries (payload map).entries)[k]? = map[k]? := by
  rw [getElem?_fromEntries]
  cases hget : map[k]? with
  | some e =>
    have hid := h k e hget
    refine latest_of_unique ((mem_payload h).mpr (hid ▸ hget)) hid ?_
    intro e' he' hid'
    have hget' := (mem_payload h).mp he'
    rw [hid', hget] at hget'
    exact (Option.some.inj hget').symm
  | none =>
    by_contra hne
    obtain ⟨e, he⟩ := Option.ne_none_iff_exists'.mp hne
    obtain ⟨hmem, hid⟩ := latest_mem he
    have hget' := (mem_payload h).mp hmem
    rw [hid, hget] at hget'
    cases hget'

theorem parse_keyed {buf : String} (h : parse sd buf = .ok map) : Keyed map := by
  unfold parse at h
  split at h
  · cases h
    exact keyed_fromEntries []
  · split at h
    · cases h
      exact keyed_fromEntries _
    · cases h

theorem cacheOf_keyed (h : cacheOf sd content = .ok map) : Keyed map := by
  unfold cacheOf parseRead at h
  cases hread : fromUtf8 (content.getD []) with
  | error e =>
    rw [hread] at h
    cases h
  | ok text =>
    rw [hread] at h
    exact parse_keyed h

theorem cacheOf_utf8 (text : String) : cacheOf sd (some (utf8 text)) = parse sd text := by
  unfold cacheOf parseRead
  rw [Option.getD_some, fromUtf8_utf8]
  rfl

/-- A file that is not there is an empty one. -/
theorem cacheOf_nil : cacheOf sd (some []) = .ok ∅ := rfl

theorem cacheOf_none : cacheOf sd none = .ok ∅ := rfl

theorem SerdeJson.RoundTrips.parse (h : sd.RoundTrips) (file : ReplayFile) :
    ∃ json, sd.toStringPretty file = .ok json ∧ parse sd json = .ok (fromEntries file.entries) := by
  obtain ⟨json, hwrite, hread⟩ := h.reads file
  refine ⟨json, hwrite, ?_⟩
  unfold Replay.parse
  rw [if_neg (h.notBlank json file hread), hread]

end Maps

/-! ### An operation alone -/

section Alone

variable {keccak256 : List UInt8 → B256} {sd : SerdeJson} {map : EntryMap} {p : Payment} {x : PaymentIdInputs}
  {content : Option (List UInt8)} {cursor : ℕ}

theorem lookup_exec : ((lookup keccak256 sd p).exec call ⟨content, cursor⟩).1 =
      answerOf keccak256 p (cacheOf sd content) ∧
    ((lookup keccak256 sd p).exec call ⟨content, cursor⟩).2.content = content := by
  cases content with
  | none => exact ⟨rfl, rfl⟩
  | some bytes => exact ⟨rfl, rfl⟩

theorem call_openFile (content : Option (List UInt8)) (cursor : ℕ) :
    call (.openFile true) ⟨content, cursor⟩ = (.ok (), ⟨some (content.getD []), 0⟩) := by
  cases content <;> rfl

theorem resize_zero (old : List UInt8) : resize 0 old = [] := by simp [resize]

theorem overwrite_empty (bytes : List UInt8) : overwrite 0 bytes [] = bytes := by simp [overwrite, resize_zero]

/-- The whole file is written. -/
theorem writeBack_exec {json : String} {k : Except RmpcError Unit → Operation} {old : List UInt8}
    (hjson : sd.toStringPretty (payload map) = .ok json) :
    (writeBack sd map k).exec call ⟨some old, cursor⟩ =
      (k (.ok ())).exec call ⟨some (utf8 json), (utf8 json).length⟩ := by
  unfold writeBack
  rw [hjson]
  simp only [Program.exec, call, Handle.write, Option.map_some, resize_zero, overwrite_empty, Nat.zero_add]

theorem insert_exec {json : String} (h : cacheOf sd content = .ok map)
    (hjson : sd.toStringPretty (payload (inserted keccak256 x map)) = .ok json) :
    (insert keccak256 sd x).exec call ⟨content, cursor⟩ =
      (.inserted, ⟨some (utf8 json), (utf8 json).length⟩) := by
  have hread : parseRead sd (fromUtf8 (List.drop 0 (content.getD []))) = .ok map := h
  unfold insert withLockedFile
  rw [Program.exec, call_openFile]
  simp only [Program.exec, call, Option.getD_some, hread, writeBack_exec hjson, resultOf]

end Alone

/-! ### The log of a file -/

/-- An operation through a handle. -/
inductive Op where
  | lookup (p : Payment)
  | insert (x : PaymentIdInputs)

namespace Op

def payment : Op → Payment
  | .lookup p => p
  | .insert x => x.toPayment

def inserts : Op → List PaymentIdInputs
  | .lookup _ => []
  | .insert x => [x]

variable (keccak256 : List UInt8 → B256)

def program (sd : SerdeJson) : Op → Operation
  | .lookup p => Replay.lookup keccak256 sd p
  | .insert x => Replay.insert keccak256 sd x

/-- The last of the inserts with a payment id. -/
def lastWith (k : String) (log : List PaymentIdInputs) : Option PaymentIdInputs :=
  latest (fun x => key keccak256 x.toPayment) k log

/-- What it returns after these inserts. -/
def outcome (log : List PaymentIdInputs) : Op → Outcome
  | .lookup p => .found ((lastWith keccak256 (key keccak256 p) log).map PaymentIdInputs.txHash)
  | .insert _ => .inserted

end Op

section Log

variable {keccak256 : List UInt8 → B256} {sd : SerdeJson} {log : List PaymentIdInputs}
  {content : Option (List UInt8)} {cursor : ℕ}

/-- The file can be read, and has the hash of the last insert with each payment id. -/
def Holds (keccak256 : List UInt8 → B256) (sd : SerdeJson) (log : List PaymentIdInputs)
    (content : Option (List UInt8)) : Prop :=
  ∃ map, cacheOf sd content = .ok map ∧
    ∀ k : String, map[k]?.map Entry.txHash = (Op.lastWith keccak256 k log).map PaymentIdInputs.txHash

theorem holds_none : Holds keccak256 sd [] none := by
  refine ⟨∅, cacheOf_none, ?_⟩
  intro k
  rw [Std.HashMap.getElem?_empty]
  rfl

/-- A file that is made is as one that is not there. -/
theorem holds_getD : Holds keccak256 sd log (some (content.getD [])) ↔ Holds keccak256 sd log content := Iff.rfl

theorem lookup_holds {p : Payment} (h : Holds keccak256 sd log content) :
    ((lookup keccak256 sd p).exec call ⟨content, cursor⟩).1 = (Op.lookup p).outcome keccak256 log := by
  obtain ⟨map, hmap, hlog⟩ := h
  rw [lookup_exec.1, hmap]
  exact congrArg Outcome.found (hlog _)

theorem insert_holds {x : PaymentIdInputs} (hsd : sd.RoundTrips) (h : Holds keccak256 sd log content) :
    ((insert keccak256 sd x).exec call ⟨content, cursor⟩).1 = .inserted ∧
      Holds keccak256 sd (log ++ [x]) ((insert keccak256 sd x).exec call ⟨content, cursor⟩).2.content := by
  obtain ⟨map, hmap, hlog⟩ := h
  obtain ⟨json, hjson, hparse⟩ := hsd.parse (payload (inserted keccak256 x map))
  rw [insert_exec hmap hjson]
  refine ⟨rfl, _, (cacheOf_utf8 json).trans hparse, ?_⟩
  intro k
  have hkeyed : Keyed (inserted keccak256 x map) := (cacheOf_keyed hmap).insert (entry keccak256 x)
  rw [getElem?_payload hkeyed]
  unfold inserted
  rw [Std.HashMap.getElem?_insert]
  by_cases hk : key keccak256 x.toPayment = k
  · have hlast : Op.lastWith keccak256 k (log ++ [x]) = some x := latest_snoc_of_eq hk
    rw [if_pos (beq_iff_eq.mpr hk), hlast]
    rfl
  · have hlast : Op.lastWith keccak256 k (log ++ [x]) = Op.lastWith keccak256 k log := latest_snoc_of_ne hk
    rw [if_neg (by simpa using hk), hlast]
    exact hlog k

/-- **An operation alone** returns what the log says, and adds its insert to the log. -/
theorem op_exec (hsd : sd.RoundTrips) (op : Op) (h : Holds keccak256 sd log content) :
    ((op.program keccak256 sd).exec call ⟨content, cursor⟩).1 = op.outcome keccak256 log ∧
      Holds keccak256 sd (log ++ op.inserts) ((op.program keccak256 sd).exec call ⟨content, cursor⟩).2.content := by
  cases op with
  | lookup p =>
    refine ⟨lookup_holds h, ?_⟩
    show Holds keccak256 sd (log ++ []) ((lookup keccak256 sd p).exec call ⟨content, cursor⟩).2.content
    rw [List.append_nil, lookup_exec.2]
    exact h
  | insert x => exact insert_holds hsd h

end Log

end RobotMoney.Client.Replay
