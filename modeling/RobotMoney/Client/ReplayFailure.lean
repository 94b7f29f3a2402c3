import RobotMoney.Client.ReplayJson

/-!
# Inserts that fail

One call of an insert fails, and the file is left as it is then: an insert cuts the file to nothing before it
writes the entries again, in place.  So whether the entries outlive the failure depends on the call that fails.
`failed_insert_survives_iff` says when they do; `failed_insert_loses` is a disk that is full.
-/

namespace RobotMoney.Client.Replay

open RobotMoney.Lib
open RobotMoney.Api (trim)

/-! ### Failures -/

/-- The call that fails; of a write, after how many bytes. -/
inductive Fault where
  | openFile
  | lock
  | read
  | setLen
  | seek
  | write (room : ℕ)
  | flush
  deriving DecidableEq

/-- The calls, where one fails with an error `e`.  It has done nothing then, but that a write has written the bytes
that there was room for. -/
def failing (fault : Fault) (e : String) : (q : Io) → Handle → q.Answer × Handle
  | .openFile create, f => if fault = .openFile then (.error e, f) else call (.openFile create) f
  | .lockShared, f => if fault = .lock then (.error e, f) else call .lockShared f
  | .lockExclusive, f => if fault = .lock then (.error e, f) else call .lockExclusive f
  | .readToString, f => if fault = .read then (.error e, f) else call .readToString f
  | .setLen size, f => if fault = .setLen then (.error e, f) else call (.setLen size) f
  | .seek pos, f => if fault = .seek then (.error e, f) else call (.seek pos) f
  | .writeAll bytes, f =>
    match fault with
    | .write room =>
      if room < bytes.length then (.error e, f.write (bytes.take room)) else call (.writeAll bytes) f
    | _ => call (.writeAll bytes) f
  | .flush, f => if fault = .flush then (.error e, f) else call .flush f
  | .pathExists, f => call .pathExists f
  | .unlock, f => call .unlock f

section Files

variable (keccak256 : List UInt8 → B256) (sd : SerdeJson)

/-- What a lookup returns from a file. -/
def lookupIn (content : Option (List UInt8)) (p : Payment) : Outcome :=
  ((lookup keccak256 sd p).exec call ⟨content, 0⟩).1

/-- Lookups can read the file. -/
def Readable (content : Option (List UInt8)) : Prop := ∀ p, ∃ r, lookupIn keccak256 sd content p = .found r

/-- Lookups find nothing in the file. -/
def IsEmpty (content : Option (List UInt8)) : Prop := ∀ p, lookupIn keccak256 sd content p = .found none

/-- What was found in a file is found in another, and that is not an empty one unless the first was. -/
structure Survives (before after : Option (List UInt8)) : Prop where
  keeps : ∀ p txHash, lookupIn keccak256 sd before p = .found (some txHash) →
    lookupIn keccak256 sd after p = .found (some txHash)
  notEmptied : IsEmpty keccak256 sd after → IsEmpty keccak256 sd before

/-- A failure before the file is cut, or after all of it is written; then the entry of the payment is the new one. -/
def Harmless (content : Option (List UInt8)) (x : PaymentIdInputs) : Fault → Prop
  | .openFile | .lock | .read | .setLen => True
  | .seek | .write _ => False
  | .flush => ∀ txHash, lookupIn keccak256 sd content x.toPayment = .found (some txHash) → txHash = x.txHash

end Files

/-! ### What is left -/

/-- The file after an insert that writes `json`. -/
def Fault.leaves (content : Option (List UInt8)) (json : List UInt8) : Fault → Option (List UInt8)
  | .openFile => content
  | .lock | .read | .setLen => some (content.getD [])
  | .seek => some []
  | .write room => some (json.take room)
  | .flush => some json

section

variable {keccak256 : List UInt8 → B256} {sd : SerdeJson} {content after : Option (List UInt8)}
  {map : EntryMap} {p : Payment} {x : PaymentIdInputs} {fault : Fault} {e : String} {json : String}

/-- The file is opened, unless that fails. -/
theorem insert_opened (h : cacheOf sd content = .ok map) (hfault : fault ≠ .openFile) (hlock : fault ≠ .lock)
    (hread : fault ≠ .read) :
    (insert keccak256 sd x).exec (failing fault e) ⟨content, 0⟩ =
      (writeBack sd (inserted keccak256 x map) fun res => .ask .unlock fun _ => .done (resultOf res)).exec
        (failing fault e) ⟨some (content.getD []), (content.getD []).length⟩ := by
  have hmap : parseRead sd (fromUtf8 (List.drop 0 (content.getD []))) = .ok map := h
  have hopen : failing fault e (.openFile true) ⟨content, 0⟩ = (.ok (), ⟨some (content.getD []), 0⟩) :=
    (if_neg hfault).trans (call_openFile content 0)
  unfold insert withLockedFile
  rw [Program.exec, hopen]
  simp only [Program.exec, failing, if_neg hlock, if_neg hread, call, Option.getD_some, hmap, Nat.zero_max]

/-- The insert fails with the call, and leaves the file so. -/
theorem insert_failing (h : cacheOf sd content = .ok map)
    (hjson : sd.toStringPretty (payload (inserted keccak256 x map)) = .ok json)
    (hcut : ∀ room, fault = .write room → room < (utf8 json).length) :
    ((insert keccak256 sd x).exec (failing fault e) ⟨content, 0⟩).1 = .failed (.errIo e) ∧
      ((insert keccak256 sd x).exec (failing fault e) ⟨content, 0⟩).2.content =
        fault.leaves content (utf8 json) := by
  cases fault with
  | openFile => exact ⟨rfl, rfl⟩
  | lock | read => cases content <;> exact ⟨rfl, rfl⟩
  | setLen =>
    rw [insert_opened h (by simp) (by simp) (by simp), writeBack, hjson]
    exact ⟨rfl, rfl⟩
  | seek =>
    rw [insert_opened h (by simp) (by simp) (by simp), writeBack, hjson]
    simp only [Program.exec, failing, call, reduceCtorEq, if_false, if_true, Option.map_some, resize_zero]
    exact ⟨rfl, rfl⟩
  | write room =>
    rw [insert_opened h (by simp) (by simp) (by simp), writeBack, hjson]
    simp only [Program.exec, failing, call, reduceCtorEq, if_false, if_pos (hcut room rfl), Handle.write,
      Option.map_some, resize_zero, overwrite_empty]
    exact ⟨rfl, rfl⟩
  | flush =>
    rw [insert_opened h (by simp) (by simp) (by simp), writeBack, hjson]
    simp only [Program.exec, failing, call, reduceCtorEq, if_false, if_true, Handle.write, Option.map_some,
      resize_zero, overwrite_empty]
    exact ⟨rfl, rfl⟩

/-- A write with room for everything does not fail. -/
theorem insert_written {room : ℕ} (h : cacheOf sd content = .ok map)
    (hjson : sd.toStringPretty (payload (inserted keccak256 x map)) = .ok json)
    (hroom : ¬ room < (utf8 json).length) :
    ((insert keccak256 sd x).exec (failing (.write room) e) ⟨content, 0⟩).1 = .inserted := by
  rw [insert_opened h (by simp) (by simp) (by simp), writeBack, hjson]
  simp only [Program.exec, failing, call, reduceCtorEq, if_false, if_neg hroom, resultOf]

/-! ### What is found in it -/

theorem lookupIn_eq (keccak256 : List UInt8 → B256) (sd : SerdeJson) (content : Option (List UInt8)) (p : Payment) :
    lookupIn keccak256 sd content p = answerOf keccak256 p (cacheOf sd content) := lookup_exec.1

theorem answerOf_empty (p : Payment) : answerOf keccak256 p (.ok ∅) = .found none := by
  show Outcome.found ((∅ : EntryMap)[key keccak256 p]?.map Entry.txHash) = _
  rw [Std.HashMap.getElem?_empty]
  rfl

theorem Readable.cacheOf_eq (h : Readable keccak256 sd content) : ∃ map, cacheOf sd content = .ok map := by
  obtain ⟨r, hr⟩ := h (mockPayment 0)
  rw [lookupIn_eq] at hr
  cases hmap : cacheOf sd content with
  | error err =>
    rw [hmap] at hr
    cases hr
  | ok map => exact ⟨map, rfl⟩

/-- Files that hold the same cache. -/
theorem Survives.of_cacheOf (h : cacheOf sd after = cacheOf sd content) :
    Survives keccak256 sd content after where
  keeps p txHash hfound := by
    rw [lookupIn_eq] at hfound ⊢
    rwa [h]
  notEmptied hempty p := by
    have hp := hempty p
    rw [lookupIn_eq] at hp ⊢
    rwa [← h]

theorem Survives.of_isEmpty (h : IsEmpty keccak256 sd content) : Survives keccak256 sd content after where
  keeps p txHash hfound := by
    rw [h p] at hfound
    cases hfound
  notEmptied _ := h

/-- Where nothing is found any more, nothing was. -/
theorem Survives.isEmpty (h : Survives keccak256 sd content after) (hread : Readable keccak256 sd content)
    (hlost : ∀ p txHash, lookupIn keccak256 sd after p ≠ .found (some txHash)) : IsEmpty keccak256 sd content := by
  intro p
  obtain ⟨r, hr⟩ := hread p
  cases r with
  | none => exact hr
  | some txHash => exact absurd (h.keeps p txHash hr) (hlost p txHash)

theorem not_found_of_nil (p : Payment) (txHash : String) :
    lookupIn keccak256 sd (some []) p ≠ .found (some txHash) := by
  rw [lookupIn_eq, cacheOf_nil, answerOf_empty]
  simp

theorem utf8_of_fromUtf8 {bytes : List UInt8} {text : String} (h : fromUtf8 bytes = .ok text) :
    utf8 text = bytes := by
  unfold fromUtf8 String.fromUTF8? at h
  by_cases hvalid : (ByteArray.mk bytes.toArray).IsValidUTF8
  · rw [dif_pos hvalid] at h
    cases h
    rfl
  · rw [dif_neg hvalid] at h
    cases h

/-- In a file whose end is missing nothing is found. -/
theorem not_found_of_cut {file : ReplayFile} (hsd : sd.Lawful) (hjson : sd.toStringPretty file = .ok json) {room : ℕ}
    (hroom : room < (utf8 json).length) (p : Payment) (txHash : String) :
    lookupIn keccak256 sd (some ((utf8 json).take room)) p ≠ .found (some txHash) := by
  rw [lookupIn_eq]
  unfold cacheOf parseRead
  rw [Option.getD_some]
  cases htext : fromUtf8 ((utf8 json).take room) with
  | error err =>
    intro h
    cases h
  | ok text =>
    have hbytes := utf8_of_fromUtf8 htext
    have hne : text ≠ json := by
      rintro rfl
      have hlen := congrArg List.length hbytes
      rw [List.length_take] at hlen
      omega
    have hcut := hsd.cut file json text hjson (hbytes ▸ List.take_prefix room _) hne
    show answerOf keccak256 p (parse sd text) ≠ _
    unfold parse
    split
    · rw [answerOf_empty]
      simp
    · split
      · next parsed hparsed => exact absurd hparsed (hcut parsed)
      · intro h
        cases h

/-- After a write of everything, the entry of the payment is the new one. -/
theorem lookupIn_written (hsd : sd.RoundTrips) (h : cacheOf sd content = .ok map)
    (hjson : sd.toStringPretty (payload (inserted keccak256 x map)) = .ok json) (p : Payment) :
    lookupIn keccak256 sd (some (utf8 json)) p =
      if key keccak256 x.toPayment = key keccak256 p then .found (some x.txHash)
      else lookupIn keccak256 sd content p := by
  obtain ⟨json', hjson', hparse⟩ := hsd.parse (payload (inserted keccak256 x map))
  obtain rfl : json = json' := Except.ok.inj (hjson.symm.trans hjson')
  have hkeyed : Keyed (inserted keccak256 x map) := (cacheOf_keyed h).insert (entry keccak256 x)
  rw [lookupIn_eq, lookupIn_eq, cacheOf_utf8, hparse, h]
  show Outcome.found ((fromEntries (payload (inserted keccak256 x map)).entries)[key keccak256 p]?.map
    Entry.txHash) = _
  rw [getElem?_payload hkeyed]
  unfold inserted
  rw [Std.HashMap.getElem?_insert]
  by_cases hk : key keccak256 x.toPayment = key keccak256 p
  · rw [if_pos (beq_iff_eq.mpr hk), if_pos hk]
    rfl
  · rw [if_neg (by simpa using hk), if_neg hk]
    rfl

/-! ### What outlives a failure -/

theorem survives_written_iff (hsd : sd.RoundTrips) (h : cacheOf sd content = .ok map)
    (hjson : sd.toStringPretty (payload (inserted keccak256 x map)) = .ok json) :
    Survives keccak256 sd content (some (utf8 json)) ↔ Harmless keccak256 sd content x .flush := by
  have hafter := lookupIn_written hsd h hjson
  constructor
  · intro hsurvives txHash hfound
    have hkept := hsurvives.keeps x.toPayment txHash hfound
    rw [hafter, if_pos rfl] at hkept
    cases hkept
    rfl
  · intro hsame
    refine ⟨?_, ?_⟩
    · intro p txHash hfound
      rw [hafter]
      by_cases hk : key keccak256 x.toPayment = key keccak256 p
      · have hx : lookupIn keccak256 sd content x.toPayment = .found (some txHash) := by
          rw [← hfound, lookupIn_eq, lookupIn_eq]
          unfold answerOf
          rw [hk]
        rw [if_pos hk, hsame txHash hx]
      · rw [if_neg hk, hfound]
    · intro hempty
      have hx := hempty x.toPayment
      rw [hafter, if_pos rfl] at hx
      cases hx

/-- **What a failed insert leaves.**  The entries outlive it if and only if the file is not cut yet, or all is
written again and the payment had no other hash, or nothing was found before. -/
theorem failed_insert_survives_iff (hsd : sd.Lawful) (hread : Readable keccak256 sd content) {err : RmpcError}
    (hfails : ((insert keccak256 sd x).exec (failing fault e) ⟨content, 0⟩).1 = .failed err) :
    Survives keccak256 sd content ((insert keccak256 sd x).exec (failing fault e) ⟨content, 0⟩).2.content ↔
      Harmless keccak256 sd content x fault ∨ IsEmpty keccak256 sd content := by
  obtain ⟨map, hmap⟩ := hread.cacheOf_eq
  obtain ⟨json, hjson, -⟩ := hsd.reads (payload (inserted keccak256 x map))
  have hcut : ∀ room, fault = .write room → room < (utf8 json).length := by
    rintro room rfl
    by_contra hroom
    rw [insert_written hmap hjson hroom] at hfails
    cases hfails
  rw [(insert_failing hmap hjson hcut).2]
  have hlost : ∀ after, (∀ p txHash, lookupIn keccak256 sd after p ≠ .found (some txHash)) →
      (Survives keccak256 sd content after ↔ False ∨ IsEmpty keccak256 sd content) := by
    intro after hnone
    rw [false_or]
    exact ⟨fun h => h.isEmpty hread hnone, .of_isEmpty⟩
  cases fault with
  | openFile | lock | read | setLen =>
    exact iff_of_true (.of_cacheOf rfl) (.inl trivial)
  | seek => exact hlost _ not_found_of_nil
  | write room => exact hlost _ (not_found_of_cut hsd hjson (hcut room rfl))
  | flush =>
    have hiff := survives_written_iff hsd.toRoundTrips hmap hjson
    refine hiff.trans ⟨.inl, ?_⟩
    rintro (hsame | hempty)
    · exact hsame
    · exact hiff.mp (.of_isEmpty hempty)

end

/-! ### A disk that is full -/

/-- The file after one insert. -/
noncomputable def mockContent : Option (List UInt8) :=
  ((insert mockKeccak256 jsonSerde ⟨mockPayment 1000000, 1, "0xfirst"⟩).exec call ⟨none, 0⟩).2.content

def noSpace : String := "No space left on device (os error 28)"

/-- Another payment is inserted, and a call fails. -/
noncomputable def mockInsert (fault : Fault) : Outcome × Handle :=
  (insert mockKeccak256 jsonSerde ⟨mockPayment 999999, 2, "0xsecond"⟩).exec (failing fault noSpace)
    ⟨mockContent, 0⟩

theorem mockContent_holds :
    Holds mockKeccak256 jsonSerde [⟨mockPayment 1000000, 1, "0xfirst"⟩] mockContent :=
  (insert_holds jsonSerde_roundTrips holds_none).2

theorem mockContent_found :
    lookupIn mockKeccak256 jsonSerde mockContent (mockPayment 1000000) = .found (some "0xfirst") := by
  have hlast : Op.lastWith mockKeccak256 (key mockKeccak256 (mockPayment 1000000))
      [⟨mockPayment 1000000, 1, "0xfirst"⟩] = some ⟨mockPayment 1000000, 1, "0xfirst"⟩ :=
    latest_singleton.trans (if_pos rfl)
  have hfound := congrArg (fun last => Outcome.found (last.map PaymentIdInputs.txHash)) hlast
  exact (lookup_holds mockContent_holds).trans hfound

theorem mockContent_readable : Readable mockKeccak256 jsonSerde mockContent :=
  fun _ => ⟨_, lookup_holds mockContent_holds⟩

theorem mockContent_not_isEmpty : ¬ IsEmpty mockKeccak256 jsonSerde mockContent := by
  intro h
  have hnone := h (mockPayment 1000000)
  rw [mockContent_found] at hnone
  cases hnone

theorem mockInsert_failing (fault : Fault) (h : ∀ room, fault = .write room → room = 0) :
    (mockInsert fault).1 = .failed (.errIo noSpace) ∧
      ∃ json, (mockInsert fault).2.content = fault.leaves mockContent json := by
  obtain ⟨map, hmap⟩ := mockContent_readable.cacheOf_eq
  obtain ⟨json, hjson, hread⟩ := jsonSerde_roundTrips.reads
    (payload (inserted mockKeccak256 ⟨mockPayment 999999, 2, "0xsecond"⟩ map))
  have hcut : ∀ room, fault = .write room → room < (utf8 json).length := by
    intro room hroom
    rw [h room hroom, List.length_pos_iff]
    intro hnil
    have hempty : json = "" := by
      have htext := fromUtf8_utf8 json
      rw [hnil] at htext
      exact (Except.ok.inj htext).symm
    exact jsonSerde_roundTrips.notBlank json _ hread (by rw [hempty]; rfl)
  obtain ⟨hfails, hleaves⟩ := insert_failing (e := noSpace) hmap hjson hcut
  exact ⟨hfails, utf8 json, hleaves⟩

/-- The disk is full when the entries are written again: the file is left empty, and the payment is not found any
more. -/
theorem failed_insert_loses :
    lookupIn mockKeccak256 jsonSerde mockContent (mockPayment 1000000) = .found (some "0xfirst") ∧
      (mockInsert (.write 0)).1 = .failed (.errIo noSpace) ∧
      IsEmpty mockKeccak256 jsonSerde (mockInsert (.write 0)).2.content := by
  obtain ⟨hfails, json, hleaves⟩ := mockInsert_failing (.write 0) (by rintro room ⟨⟩; rfl)
  refine ⟨mockContent_found, hfails, ?_⟩
  intro p
  rw [hleaves, lookupIn_eq]
  exact answerOf_empty p

/-- The cache outlives a failure to cut the file, and no failure to write it. -/
theorem failed_insert_survives_mock :
    Survives mockKeccak256 jsonSerde mockContent (mockInsert .setLen).2.content ∧
      ¬ Survives mockKeccak256 jsonSerde mockContent (mockInsert (.write 0)).2.content := by
  have hcut := (mockInsert_failing .setLen (by rintro room ⟨⟩)).1
  have hwrite := (mockInsert_failing (.write 0) (by rintro room ⟨⟩; rfl)).1
  constructor
  · exact (failed_insert_survives_iff jsonSerde_lawful mockContent_readable hcut).mpr (.inl trivial)
  · intro h
    have hcase := (failed_insert_survives_iff jsonSerde_lawful mockContent_readable hwrite).mp h
    exact hcase.elim id mockContent_not_isEmpty

end RobotMoney.Client.Replay
