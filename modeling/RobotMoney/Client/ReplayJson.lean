import Mathlib.Data.List.TakeWhile
import RobotMoney.Client.ReplayFile
import RobotMoney.Lib.SelfEnding

/-!
# The text of the replay file

What `serde_json::to_string_pretty` writes for the file, character by character.  A text is read as the file
that it is written for, and no other text is read: `jsonSerde_lawful` says that this is an instance of what the
cache relies on.
-/

namespace RobotMoney.Client.Replay

open RobotMoney.Lib
open RobotMoney.Api (trim isWhitespace)

/-! ### What is written -/

/-- A character inside a string. -/
def escape (c : Char) : List Char :=
  if c = '"' then ['\\', '"']
  else if c = '\\' then ['\\', '\\']
  else if c = '\x08' then ['\\', 'b']
  else if c = '\t' then ['\\', 't']
  else if c = '\n' then ['\\', 'n']
  else if c = '\x0c' then ['\\', 'f']
  else if c = '\r' then ['\\', 'r']
  else if c.toNat < 0x20 then '\\' :: 'u' :: hexWord 4 c.toNat
  else [c]

/-- The other way. -/
def unescape : List Char → Option (Char × List Char)
  | '\\' :: '"' :: r => some ('"', r)
  | '\\' :: '\\' :: r => some ('\\', r)
  | '\\' :: 'b' :: r => some ('\x08', r)
  | '\\' :: 't' :: r => some ('\t', r)
  | '\\' :: 'n' :: r => some ('\n', r)
  | '\\' :: 'f' :: r => some ('\x0c', r)
  | '\\' :: 'r' :: r => some ('\r', r)
  | '\\' :: 'u' :: a :: b :: c :: d :: r => (readHex [a, b, c, d]).map fun n => (Char.ofNat n, r)
  | c :: r => some (c, r)
  | [] => none

def jsonString (s : String) : List Char := '"' :: SelfEnding.upTo escape ['"'] s.toList

/-- A number, and the comma behind it. -/
def jsonNumber (n : ℕ) : List Char := n.repr.toList ++ [',']

def jsonEntry (e : Entry) : List Char :=
  "    \x7b\n      \"payment_id\": ".toList ++ (jsonString e.paymentId ++ (",\n      \"order_id\": ".toList ++
    (jsonString e.orderId ++ (",\n      \"idempotency_key\": ".toList ++ (jsonString e.idempotencyKey ++
      (",\n      \"deadline\": ".toList ++ (jsonNumber e.deadline.toNat ++ ("\n      \"tx_hash\": ".toList ++
        (jsonString e.txHash ++ "\n    \x7d".toList)))))))))

/-- The entries, from behind the bracket that opens the list. -/
def jsonEntries : List Entry → List Char
  | [] => [']']
  | e :: es => '\n' :: (jsonEntry e ++ SelfEnding.upTo (fun e => [',', '\n'] ++ jsonEntry e) "\n  ]".toList es)

def jsonFile (file : ReplayFile) : List Char :=
  "\x7b\n  \"version\": ".toList ++ (jsonNumber file.version.toNat ++ ("\n  \"entries\": [".toList ++
    (jsonEntries file.entries ++ "\n\x7d".toList)))

/-! ### It ends by itself -/

theorem unescape_of_ne {c : Char} (h : c ≠ '\\') (r : List Char) : unescape (c :: r) = some (c, r) := by
  unfold unescape
  split <;> simp_all

theorem unescape_escape (c : Char) (r : List Char) : unescape (escape c ++ r) = some (c, r) := by
  unfold escape
  split_ifs with h₁ h₂ h₃ h₄ h₅ h₆ h₇ h₈
  · rw [h₁]; rfl
  · rw [h₂]; rfl
  · rw [h₃]; rfl
  · rw [h₄]; rfl
  · rw [h₅]; rfl
  · rw [h₆]; rfl
  · rw [h₇]; rfl
  · have hread : readHex (hexWord 4 c.toNat) = some c.toNat := readHex_hexWord (by omega)
    show (readHex (hexWord 4 c.toNat)).map (fun n => (Char.ofNat n, r)) = some (c, r)
    rw [hread, Option.map_some, Char.ofNat_toNat]
  · exact unescape_of_ne h₂ r

theorem escape_selfEnding : SelfEnding escape := .of_read unescape unescape_escape

theorem escape_ne_quote (c : Char) (r r' : List Char) : escape c ++ r ≠ ['"'] ++ r' := by
  intro h
  have hquote : unescape (['"'] ++ r') = some ('"', r') := unescape_of_ne (by decide) r'
  rw [← h, unescape_escape] at hquote
  obtain rfl := (Prod.mk.inj (Option.some.inj hquote)).1
  simp [escape] at h

theorem jsonString_selfEnding : SelfEnding jsonString :=
  ((escape_selfEnding.until_mark escape_ne_quote).mark ['"']).comap fun _ _ h => String.toList_inj.mp h

theorem comma_notMem_repr (n : ℕ) : ',' ∉ n.repr.toList := by
  rw [Nat.toList_repr]
  intro h
  exact absurd (Nat.isDigit_of_mem_toDigits (by decide) (by decide) h) (by decide)

theorem jsonNumber_selfEnding : SelfEnding jsonNumber :=
  .of_notMem (fun _ _ h => natRepr_injective (String.toList_inj.mp h)) comma_notMem_repr

theorem jsonEntry_selfEnding : SelfEnding jsonEntry := by
  rintro ⟨id, order, idem, deadline, tx⟩ ⟨id', order', idem', deadline', tx'⟩ r r' h
  unfold jsonEntry at h
  simp only [List.append_assoc] at h
  obtain ⟨hid, h⟩ := jsonString_selfEnding _ _ _ _ (List.append_cancel_left h)
  obtain ⟨horder, h⟩ := jsonString_selfEnding _ _ _ _ (List.append_cancel_left h)
  obtain ⟨hidem, h⟩ := jsonString_selfEnding _ _ _ _ (List.append_cancel_left h)
  obtain ⟨hdeadline, h⟩ := jsonNumber_selfEnding _ _ _ _ (List.append_cancel_left h)
  obtain ⟨htx, h⟩ := jsonString_selfEnding _ _ _ _ (List.append_cancel_left h)
  rw [hid, horder, hidem, UInt64.toNat_inj.mp hdeadline, htx]
  exact ⟨rfl, List.append_cancel_left h⟩

theorem jsonEntries_selfEnding : SelfEnding jsonEntries := by
  have hmore : SelfEnding (SelfEnding.upTo (fun e => [',', '\n'] ++ jsonEntry e) "\n  ]".toList) :=
    (jsonEntry_selfEnding.mark [',', '\n']).until_mark fun e r r' h => by cases h
  rintro (_ | ⟨e, es⟩) (_ | ⟨e', es'⟩) r r' h
  · exact ⟨rfl, List.append_cancel_left h⟩
  · cases h
  · cases h
  · obtain ⟨-, h⟩ := List.cons.inj h
    rw [List.append_eq, List.append_eq, List.append_assoc, List.append_assoc] at h
    obtain ⟨he, h⟩ := jsonEntry_selfEnding _ _ _ _ h
    obtain ⟨hes, h⟩ := hmore _ _ _ _ h
    rw [he, hes]
    exact ⟨rfl, h⟩

theorem jsonFile_selfEnding : SelfEnding jsonFile := by
  rintro ⟨version, entries⟩ ⟨version', entries'⟩ r r' h
  unfold jsonFile at h
  simp only [List.append_assoc] at h
  obtain ⟨hversion, h⟩ := jsonNumber_selfEnding _ _ _ _ (List.append_cancel_left h)
  obtain ⟨hentries, h⟩ := jsonEntries_selfEnding _ _ _ _ (List.append_cancel_left h)
  rw [UInt32.toNat_inj.mp hversion, hentries]
  exact ⟨rfl, List.append_cancel_left h⟩

/-! ### It is read again -/

open Classical in
/-- The file that a text is written for. -/
noncomputable def readFile (text : String) : Except String ReplayFile :=
  if h : ∃ file, jsonFile file = text.toList then .ok h.choose else .error "expected value at line 1 column 1"

noncomputable def jsonSerde : SerdeJson where
  fromStr := readFile
  toStringPretty file := .ok (String.ofList (jsonFile file))

theorem readFile_eq_ok {text : String} {file : ReplayFile} :
    readFile text = .ok file ↔ jsonFile file = text.toList := by
  unfold readFile
  split
  · next h =>
    constructor
    · rintro ⟨⟩
      exact h.choose_spec
    · intro heq
      exact congrArg Except.ok (jsonFile_selfEnding.injective (h.choose_spec.trans heq.symm))
  · next h =>
    constructor
    · rintro ⟨⟩
    · intro heq
      exact absurd ⟨file, heq⟩ h

theorem trim_ne_nil {c : Char} (h : isWhitespace c = false) (cs : List Char) : trim (c :: cs) ≠ [] := by
  have hdrop : (c :: cs).dropWhile isWhitespace = c :: cs := List.dropWhile_cons_of_neg (by simp [h])
  unfold trim
  rw [hdrop]
  intro hnil
  have hall := List.dropWhile_eq_nil_iff.mp (List.reverse_eq_nil_iff.mp hnil) c (by simp)
  rw [h] at hall
  cases hall

theorem jsonSerde_roundTrips : jsonSerde.RoundTrips where
  reads file := ⟨_, rfl, readFile_eq_ok.mpr (String.toList_ofList ..).symm⟩
  notBlank text file h := by
    have hchars : jsonFile file = text.toList := readFile_eq_ok.mp h
    rw [← hchars]
    exact trim_ne_nil (by decide) _

theorem jsonSerde_lawful : jsonSerde.Lawful where
  toRoundTrips := jsonSerde_roundTrips
  cut := by
    rintro file json text ⟨⟩ hprefix hne file' hread
    have htext : jsonFile file' = text.toList := readFile_eq_ok.mp hread
    have hchars := toList_prefix_of_bytes hprefix
    rw [String.toList_ofList, ← htext] at hchars
    obtain rfl := jsonFile_selfEnding.eq_of_prefix hchars
    exact hne (by rw [htext, String.ofList_toList])

end RobotMoney.Client.Replay
