import RobotMoney.Lib.Hex
import RobotMoney.Lib.Revert

/-!
# Flat TOML

The part of TOML 1.0 that configuration files are written in: comments, tables with a bare key, and entries of
a bare key with a basic string, a decimal integer or a truth value.  `document` reads such a text; a text that
TOML does not allow is `invalid`, one with a form outside this part (a quoted or dotted key, an array, a
multi-line or literal string, a float, a date, a carriage return) is `beyond` it.
-/

namespace RobotMoney.Lib.Toml

inductive Refusal where
  | invalid
  | beyond
  deriving DecidableEq

abbrev Reading (α : Type) : Type := Except Refusal α

inductive Value where
  | string (s : String)
  | integer (n : ℤ)
  | boolean (b : Bool)
  deriving DecidableEq

/-- A line: nothing but space and a comment, the header of a table, or an entry. -/
inductive Line where
  | blank
  | table (key : String)
  | entry (key : String) (value : Value)
  deriving DecidableEq

/-- The entries before the first header, and the tables, the last one first. -/
structure Document where
  top : List (String × Value)
  tables : List (String × List (String × Value))
  deriving DecidableEq

/-! ### Strings -/

/-- `basic-unescaped`, `wschar` -/
def unescaped (c : Char) : Bool :=
  c.toNat = 0x09 ∨ (0x20 ≤ c.toNat ∧ c.toNat ≠ 0x22 ∧ c.toNat ≠ 0x5C ∧ c.toNat ≠ 0x7F)

/-- The escapes of one letter. -/
def shortEscape (c : Char) : Reading Char :=
  match c with
  | 'b' => .ok (Char.ofNat 0x08)
  | 't' => .ok (Char.ofNat 0x09)
  | 'n' => .ok (Char.ofNat 0x0A)
  | 'f' => .ok (Char.ofNat 0x0C)
  | 'r' => .ok (Char.ofNat 0x0D)
  | '"' => .ok '"'
  | '\\' => .ok '\\'
  | _ => .error .invalid

/-- `\uXXXX` and `\UXXXXXXXX`: a scalar value of Unicode. -/
def unicodeEscape (digits : List Char) : Reading Char :=
  match readHex digits with
  | some n => if n.isValidChar then .ok (Char.ofNat n) else .error .invalid
  | none => .error .invalid

/-- One more character in front of a string read. -/
def push (c : Reading Char) (rest : Reading (List Char × List Char)) : Reading (List Char × List Char) := do
  let c ← c
  let (cs, after) ← rest
  pure (c :: cs, after)

/-- The characters of a basic string behind its first quotation mark, and what follows its last. -/
def basicString : List Char → Reading (List Char × List Char)
  | [] => .error .invalid
  | c :: cs =>
    if c = '"' then .ok ([], cs)
    else if c = '\\' then
      match cs with
      | 'u' :: d₁ :: d₂ :: d₃ :: d₄ :: cs => push (unicodeEscape [d₁, d₂, d₃, d₄]) (basicString cs)
      | 'U' :: d₁ :: d₂ :: d₃ :: d₄ :: d₅ :: d₆ :: d₇ :: d₈ :: cs =>
        push (unicodeEscape [d₁, d₂, d₃, d₄, d₅, d₆, d₇, d₈]) (basicString cs)
      | e :: cs => push (shortEscape e) (basicString cs)
      | [] => .error .invalid
    else push (if unescaped c then .ok c else .error .invalid) (basicString cs)

/-! ### Values -/

/-- A decimal integer of 64 bits, without leading zeros.  What may follow the digits of another kind of
number is beyond. -/
def integer (negative : Bool) (cs : List Char) : Reading (Value × List Char) :=
  let digits := cs.takeWhile Char.isDigit
  let after := cs.dropWhile Char.isDigit
  let magnitude := Nat.ofDigitChars 10 digits 0
  let n : ℤ := if negative then -magnitude else magnitude
  if after.head?.any fun c => "_.eE-:xob".toList.contains c then .error .beyond
  else if digits = Nat.toDigits 10 magnitude ∧ -2 ^ 63 ≤ n ∧ n < 2 ^ 63 then .ok (.integer n, after)
  else .error .invalid

def literal (text : String) (v : Value) (cs : List Char) : Reading (Value × List Char) :=
  if text.toList.isPrefixOf cs then .ok (v, cs.drop text.length) else .error .invalid

/-- A value, and what follows it on the line. -/
def value : List Char → Reading (Value × List Char)
  | [] => .error .invalid
  | c :: cs =>
    if c = '"' then
      if ['"', '"'].isPrefixOf cs then .error .beyond
      else do
        let (s, after) ← basicString cs
        pure (.string (String.ofList s), after)
    else if c = 't' then literal "true" (.boolean true) (c :: cs)
    else if c = 'f' then literal "false" (.boolean false) (c :: cs)
    else if c.isDigit then integer false (c :: cs)
    else if c = '-' ∨ c = '+' then
      if cs.head?.any Char.isDigit then integer (c = '-') cs else .error .beyond
    else .error .beyond

/-! ### Lines -/

def skipSpace (cs : List Char) : List Char := cs.dropWhile fun c => c = ' ' || c = '\t'

def bareKeyChar (c : Char) : Bool := c.isAlphanum || c = '-' || c = '_'

/-- What may stand in a comment. -/
def commentChar (c : Char) : Bool := c.toNat = 0x09 ∨ (0x20 ≤ c.toNat ∧ c.toNat ≠ 0x7F)

/-- The end of a line: space, and maybe a comment. -/
def lineEnd (l : Line) (cs : List Char) : Reading Line :=
  match skipSpace cs with
  | [] => .ok l
  | c :: cs => if c = '#' ∧ cs.all commentChar then .ok l else .error .invalid

/-- A bare key, and what follows it and the space behind it. -/
def bareKey (cs : List Char) : Reading (String × List Char) :=
  let key := cs.takeWhile bareKeyChar
  let after := skipSpace (cs.dropWhile bareKeyChar)
  if key = [] then
    if cs.head?.any fun c => c = '"' || c = '\'' then .error .beyond else .error .invalid
  else if after.head? = some '.' then .error .beyond
  else .ok (String.ofList key, after)

def entryLine (cs : List Char) : Reading Line := do
  let (key, after) ← bareKey cs
  match after with
  | [] => .error .invalid
  | c :: after =>
    if c = '=' then do
      let (v, after) ← value (skipSpace after)
      lineEnd (.entry key v) after
    else .error .invalid

def tableLine (cs : List Char) : Reading Line := do
  let (key, after) ← bareKey (skipSpace cs)
  match after with
  | [] => .error .invalid
  | c :: after => if c = ']' then lineEnd (.table key) after else .error .invalid

def line (cs : List Char) : Reading Line :=
  match skipSpace cs with
  | [] => .ok .blank
  | c :: cs =>
    if c = '#' then lineEnd .blank (c :: cs)
    else if c = '[' then if cs.head? = some '[' then .error .beyond else tableLine cs
    else entryLine (c :: cs)

/-! ### Documents -/

/-- A key is defined once in its table, and a table once. -/
def Document.add (d : Document) : Line → Reading Document
  | .blank => .ok d
  | .table key =>
    if key ∈ d.top.map Prod.fst ∨ key ∈ d.tables.map Prod.fst then .error .invalid
    else .ok { d with tables := (key, []) :: d.tables }
  | .entry key v =>
    match d.tables with
    | [] => if key ∈ d.top.map Prod.fst then .error .invalid else .ok { d with top := d.top ++ [(key, v)] }
    | (name, entries) :: ts =>
      if key ∈ entries.map Prod.fst then .error .invalid
      else .ok { d with tables := (name, entries ++ [(key, v)]) :: ts }

/-- The document of a text.  A carriage return and a byte order mark are beyond. -/
def document (text : List Char) : Reading Document :=
  if '\r' ∈ text ∨ text.head? = some (Char.ofNat 0xFEFF) then .error .beyond
  else do
    let lines ← (text.splitOn '\n').mapM line
    lines.foldlM Document.add ⟨[], []⟩

/-- A parser of TOML, with the text of its error, does on this part what TOML 1.0 says. -/
structure Conforms (parse : String → Except String Document) : Prop where
  accepts : ∀ text d, document text.toList = .ok d → parse text = .ok d
  rejects : ∀ text, document text.toList = .error .invalid → ∃ message, parse text = .error message

/-! ### Reading a string -/

theorem basicString_end (cs : List Char) : basicString ('"' :: cs) = .ok ([], cs) := by
  rw [basicString.eq_def]
  simp

theorem basicString_plain {c : Char} (hquote : c ≠ '"') (hescape : c ≠ '\\') (cs : List Char) :
    basicString (c :: cs) = push (if unescaped c then .ok c else .error .invalid) (basicString cs) := by
  rw [basicString.eq_def]
  simp only [if_neg hquote, if_neg hescape]

theorem basicString_short {e : Char} (hu : e ≠ 'u') (hU : e ≠ 'U') (cs : List Char) :
    basicString ('\\' :: e :: cs) = push (shortEscape e) (basicString cs) := by
  rw [basicString.eq_def]
  simp [hu, hU]

/-- A number written as four digits behind `\u`. -/
theorem basicString_unicode {n : ℕ} (hn : n < 16 ^ 4) (cs : List Char) :
    basicString ('\\' :: 'u' :: (hexWord 4 n ++ cs)) =
      push (if n.isValidChar then .ok (Char.ofNat n) else .error .invalid) (basicString cs) := by
  have hread : unicodeEscape (hexWord 4 n) = if n.isValidChar then .ok (Char.ofNat n) else .error .invalid := by
    rw [unicodeEscape, readHex_hexWord hn]
  rw [← hread, basicString.eq_def]
  simp [hexWord]

theorem push_ok (c : Char) (cs after : List Char) :
    push (.ok c) (.ok (cs, after)) = .ok (c :: cs, after) := rfl

theorem push_invalid_left {rest : Reading (List Char × List Char)} :
    push (.error .invalid) rest = .error .invalid := rfl

/-! ### Reading a line -/

theorem skipSpace_replicate (n : ℕ) {c : Char} (hspace : c ≠ ' ') (htab : c ≠ '\t') (cs : List Char) :
    skipSpace (List.replicate n ' ' ++ c :: cs) = c :: cs := by
  unfold skipSpace
  induction n with
  | zero => simp [hspace, htab]
  | succ n ih => simpa [List.replicate_succ] using ih

theorem bareKey_eq {key : List Char} (hkey : key ≠ []) (hall : ∀ c ∈ key, bareKeyChar c = true) (n : ℕ)
    {c : Char} (hc : bareKeyChar c = false) (hspace : c ≠ ' ') (htab : c ≠ '\t') (hdot : c ≠ '.')
    (cs : List Char) :
    bareKey (key ++ (List.replicate n ' ' ++ c :: cs)) = .ok (String.ofList key, c :: cs) := by
  have hhead : ∀ d ∈ (List.replicate n ' ' ++ c :: cs).head?, bareKeyChar d = false := by
    cases n with
    | zero =>
      intro d hd
      obtain rfl : c = d := by simpa using hd
      exact hc
    | succ n =>
      intro d hd
      obtain rfl : ' ' = d := by simpa [List.replicate_succ] using hd
      rfl
  have htake : (key ++ (List.replicate n ' ' ++ c :: cs)).takeWhile bareKeyChar = key := by
    rw [List.takeWhile_append_of_pos hall]
    rcases hrest : List.replicate n ' ' ++ c :: cs with _ | ⟨d, ds⟩
    · simp
    · rw [hrest] at hhead
      simp [hhead d (by simp)]
  have hdrop : (key ++ (List.replicate n ' ' ++ c :: cs)).dropWhile bareKeyChar =
      List.replicate n ' ' ++ c :: cs := by
    rw [List.dropWhile_append_of_pos hall]
    rcases hrest : List.replicate n ' ' ++ c :: cs with _ | ⟨d, ds⟩
    · simp
    · rw [hrest] at hhead
      simp [hhead d (by simp)]
  simp only [bareKey, htake, hdrop, if_neg hkey, skipSpace_replicate n hspace htab, List.head?_cons,
    Option.some.injEq, if_neg hdot]

/-- An entry whose key is padded with spaces. -/
theorem line_entry {key : List Char} (hkey : key ≠ []) (hall : ∀ c ∈ key, bareKeyChar c = true) (n : ℕ)
    {c : Char} (hspace : c ≠ ' ') (htab : c ≠ '\t') (cs : List Char) :
    line (key ++ (List.replicate n ' ' ++ '=' :: ' ' :: c :: cs)) =
      value (c :: cs) >>= fun r => lineEnd (.entry (String.ofList key) r.1) r.2 := by
  obtain ⟨k, ks, rfl⟩ := List.exists_cons_of_ne_nil hkey
  have hk : bareKeyChar k = true := hall k (by simp)
  have hne : ∀ d : Char, bareKeyChar d = false → k ≠ d := by
    rintro d hd rfl
    rw [hk] at hd
    cases hd
  have hskip : skipSpace (k :: ks ++ (List.replicate n ' ' ++ '=' :: ' ' :: c :: cs)) =
      k :: (ks ++ (List.replicate n ' ' ++ '=' :: ' ' :: c :: cs)) := by
    simp [skipSpace, hne ' ' rfl, hne '\t' rfl]
  have hvalue : skipSpace (' ' :: c :: cs) = c :: cs := skipSpace_replicate 1 hspace htab cs
  have hbare := bareKey_eq hkey hall n (c := '=') rfl (by decide) (by decide) (by decide) (' ' :: c :: cs)
  rw [line, hskip]
  simp only [if_neg (hne '#' rfl), if_neg (hne '[' rfl)]
  rw [entryLine, ← List.cons_append, hbare]
  simp only [bind, Except.bind, if_true, hvalue]

/-! ### Reading a document -/

/-- The lines of a text that was joined from lines. -/
theorem splitOn_joined {lines : List (List Char)} (hne : lines ≠ []) (h : ∀ l ∈ lines, '\n' ∉ l) :
    (['\n'].intercalate lines ++ ['\n']).splitOn '\n' = lines ++ [[]] := by
  rw [List.splitOn_append_cons_self, List.splitOn_intercalate '\n' h hne, List.splitOn_nil]

theorem mem_joined {lines : List (List Char)} {c : Char} (h : c ∈ ['\n'].intercalate lines) :
    c = '\n' ∨ ∃ l ∈ lines, c ∈ l := by
  induction lines with
  | nil => simp at h
  | cons l ls ih =>
    cases ls with
    | nil => exact .inr ⟨l, by simp, by simpa using h⟩
    | cons k ks =>
      rw [List.intercalate_cons_cons, List.mem_append, List.mem_append] at h
      rcases h with (h | h) | h
      · exact .inr ⟨l, by simp, h⟩
      · exact .inl (by simpa using h)
      · rcases ih h with hnl | ⟨m, hm, hc⟩
        · exact .inl hnl
        · exact .inr ⟨m, List.mem_cons_of_mem _ hm, hc⟩

/-- A text joined from lines without control characters is read line by line; the last line is empty. -/
theorem document_joined {l : List Char} {ls : List (List Char)} {first : Char} (hfirst : l.head? = some first)
    (hmark : first ≠ Char.ofNat 0xFEFF) (hprint : ∀ k ∈ l :: ls, ∀ c ∈ k, 0x20 ≤ c.toNat) :
    document (['\n'].intercalate (l :: ls) ++ ['\n']) =
      (l :: ls ++ [[]]).mapM line >>= fun lines => lines.foldlM Document.add ⟨[], []⟩ := by
  have hnewline : ∀ k ∈ l :: ls, '\n' ∉ k := fun k hk hmem => absurd (hprint k hk _ hmem) (by decide)
  have hreturn : '\r' ∉ ['\n'].intercalate (l :: ls) ++ ['\n'] := by
    intro hmem
    rcases List.mem_append.mp hmem with hmem | hmem
    · rcases mem_joined hmem with hnl | ⟨k, hk, hc⟩
      · cases hnl
      · exact absurd (hprint k hk _ hc) (by decide)
    · simp at hmem
  have hhead : (['\n'].intercalate (l :: ls) ++ ['\n']).head? = some first := by
    obtain ⟨c, cs, rfl⟩ := List.exists_cons_of_ne_nil (show l ≠ [] by rintro rfl; cases hfirst)
    cases ls with
    | nil => simpa using hfirst
    | cons k ks => simpa [List.intercalate_cons_cons] using hfirst
  have hno : ¬ ('\r' ∈ ['\n'].intercalate (l :: ls) ++ ['\n'] ∨
      (['\n'].intercalate (l :: ls) ++ ['\n']).head? = some (Char.ofNat 0xFEFF)) := by
    rintro (h | h)
    · exact hreturn h
    · rw [hhead] at h
      exact hmark (Option.some.inj h)
  rw [document, if_neg hno, splitOn_joined (by simp) hnewline]

/-- Lines are read one by one. -/
theorem mapM_cons_ok {l : List Char} {ls : List (List Char)} {r : Line} {rs : List Line}
    (h : line l = .ok r) (hs : ls.mapM line = .ok rs) : (l :: ls).mapM line = .ok (r :: rs) := by
  rw [List.mapM_cons, h, hs]
  rfl

/-- Where every line is read or invalid, and one is invalid, the text is invalid. -/
theorem mapM_line_invalid {lines : List (List Char)} (h : ∀ l ∈ lines, line l ≠ .error .beyond)
    {bad : List Char} (hbad : bad ∈ lines) (hinvalid : line bad = .error .invalid) :
    lines.mapM line = .error .invalid := by
  induction lines with
  | nil => simp at hbad
  | cons l ls ih =>
    simp only [List.forall_mem_cons] at h
    rw [List.mapM_cons]
    cases hl : line l with
    | error e =>
      cases e with
      | invalid => rfl
      | beyond => exact absurd hl h.1
    | ok r =>
      have hmem : bad ∈ ls := by
        rcases List.mem_cons.mp hbad with rfl | hmem
        · rw [hinvalid] at hl
          cases hl
        · exact hmem
      rw [ih h.2 hmem]
      rfl

end RobotMoney.Lib.Toml
