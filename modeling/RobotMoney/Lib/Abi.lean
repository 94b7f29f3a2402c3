import Mathlib.Tactic

/-!
# Encodings with heads and tails

The contract ABI, on words of 32 bytes.  A value is *static* and written in place, or *dynamic*: then its
place in the head holds an offset, and it is written behind the heads.  A codec `Codec α` writes and reads
one value, `Fields α` writes and reads a sequence of values of which each has its place in a head; a tuple
is such a sequence, and so is what a function returns.

Codecs are put together from `single`, `string`, `array` and `tuple`, and each of these keeps `Lawful`: what
is written is read, and what is read is in the range of its type.  `Fields.strict` reads and asks that the
value is written as it was read; so it reads exactly what `Fields.returns` writes (`strict_eq_some_iff`).
-/

namespace RobotMoney.Lib.Abi

variable {α β : Type}

/-! ### Codecs -/

/-- How a value is written and read. -/
structure Codec (α : Type) where
  dynamic : Bool
  /-- the number of words of a static value -/
  size : ℕ
  valid : α → Prop
  encode : α → List ℕ
  decode : List ℕ → Option α

/-- The number of words in the head. -/
def Codec.headSize (c : Codec α) : ℕ := if c.dynamic then 1 else c.size

/-- What is written is read, whatever follows it, and what is read is valid. -/
structure Codec.Lawful (c : Codec α) : Prop where
  length_eq : ∀ a, c.valid a → c.dynamic = false → (c.encode a).length = c.size
  decode_of_prefix : ∀ a data, c.valid a → c.encode a <+: data → c.decode data = some a
  valid_of_decode : ∀ a data, c.decode data = some a → c.valid a

/-- A sequence of values: `layout a off` are its heads and its tails, when the tails start `off` words after
the start of the heads; `parse frame pos` reads it with its heads at the place `pos`. -/
structure Fields (α : Type) where
  dynamic : Bool
  headSize : ℕ
  valid : α → Prop
  layout : α → ℕ → List ℕ × List ℕ
  parse : List ℕ → ℕ → Option α

structure Fields.Lawful (f : Fields α) : Prop where
  length_head : ∀ a off, f.valid a → (f.layout a off).1.length = f.headSize
  no_tail : ∀ a off, f.valid a → f.dynamic = false → (f.layout a off).2 = []
  parse_layout : ∀ a off pos frame, f.valid a → (f.layout a off).1 <+: frame.drop pos →
    (f.layout a off).2 <+: frame.drop off → f.parse frame pos = some a
  valid_of_parse : ∀ a pos frame, f.parse frame pos = some a → f.valid a

/-! ### Words -/

/-- A value in one word. -/
def single (valid : α → Prop) (write : α → ℕ) (read : ℕ → Option α) : Codec α where
  dynamic := false
  size := 1
  valid := valid
  encode a := [write a]
  decode data := data.head?.bind read

theorem single_lawful {valid : α → Prop} {write : α → ℕ} {read : ℕ → Option α}
    (h : ∀ a, valid a → read (write a) = some a) (hvalid : ∀ n a, read n = some a → valid a) :
    (single valid write read).Lawful where
  length_eq _ _ _ := rfl
  decode_of_prefix a data ha hpre := by
    obtain ⟨rest, rfl⟩ := hpre
    exact h a ha
  valid_of_decode a data hdecode := by
    obtain ⟨n, -, hn⟩ := Option.bind_eq_some_iff.mp hdecode
    exact hvalid n a hn

/-- `uintN` -/
def uint (bits : ℕ) : Codec ℕ :=
  single (fun n => n < 2 ^ bits) id fun n => if n < 2 ^ bits then some n else none

/-- `uint256`, any word -/
def uint256 : Codec ℕ := single (fun _ => True) id some

def bool : Codec Bool :=
  single (fun _ => True) Bool.toNat fun n => if n = 0 then some false else if n = 1 then some true else none

/-- `Fin n` in a word, as an address is. -/
def fin (n : ℕ) : Codec (Fin n) :=
  single (fun _ => True) Fin.val fun k => if h : k < n then some ⟨k, h⟩ else none

theorem uint_lawful (bits : ℕ) : (uint bits).Lawful := by
  refine single_lawful ?_ ?_
  · intro n hn
    exact if_pos hn
  · intro n a h
    simp only [Option.ite_none_right_eq_some, Option.some.injEq] at h
    obtain ⟨hn, rfl⟩ := h
    exact hn

theorem uint256_lawful : uint256.Lawful := single_lawful (fun _ _ => rfl) fun _ _ _ => trivial

theorem bool_lawful : bool.Lawful := by
  refine single_lawful ?_ fun _ _ _ => trivial
  intro b _
  cases b <;> rfl

theorem fin_lawful (n : ℕ) : (fin n).Lawful := by
  refine single_lawful ?_ fun _ _ _ => trivial
  intro a _
  exact dif_pos a.2

/-! ### Strings -/

/-- The first `w` bytes of a list as a number, with zeros where there is none. -/
def bytesWord : ℕ → List UInt8 → ℕ
  | 0, _ => 0
  | _ + 1, [] => 0
  | w + 1, b :: bs => b.toNat * 256 ^ w + bytesWord w bs

/-- The last `w` bytes of a number. -/
def wordBytes : ℕ → ℕ → List UInt8
  | 0, _ => []
  | w + 1, n => UInt8.ofNat (n / 256 ^ w) :: wordBytes w (n % 256 ^ w)

/-- `k` words of bytes. -/
def pack : ℕ → List UInt8 → List ℕ
  | 0, _ => []
  | k + 1, bs => bytesWord 32 bs :: pack k (bs.drop 32)

/-- The bytes of words. -/
def unpack (ws : List ℕ) : List UInt8 := ws.flatMap (wordBytes 32)

/-- `n` bytes, those of the list first and then zeros. -/
def padded (n : ℕ) (bs : List UInt8) : List UInt8 := bs.take n ++ List.replicate (n - bs.length) 0

theorem bytesWord_lt (w : ℕ) (bs : List UInt8) : bytesWord w bs < 256 ^ w := by
  induction w generalizing bs with
  | zero => simp [bytesWord]
  | succ w ih =>
    cases bs with
    | nil => exact Nat.pow_pos (by decide)
    | cons b bs =>
      have hb : b.toNat + 1 ≤ 256 := b.toNat_lt
      calc b.toNat * 256 ^ w + bytesWord w bs < b.toNat * 256 ^ w + 256 ^ w :=
            Nat.add_lt_add_left (ih bs) _
        _ = (b.toNat + 1) * 256 ^ w := by ring
        _ ≤ 256 * 256 ^ w := Nat.mul_le_mul_right _ hb
        _ = 256 ^ (w + 1) := by ring

theorem wordBytes_zero (w : ℕ) : wordBytes w 0 = List.replicate w 0 := by
  induction w with
  | zero => rfl
  | succ w ih => simp [wordBytes, ih, List.replicate_succ]

theorem length_wordBytes (w n : ℕ) : (wordBytes w n).length = w := by
  induction w generalizing n with
  | zero => rfl
  | succ w ih => rw [wordBytes, List.length_cons, ih]

theorem wordBytes_inj {w n m : ℕ} (hn : n < 256 ^ w) (hm : m < 256 ^ w)
    (h : wordBytes w n = wordBytes w m) : n = m := by
  induction w generalizing n m with
  | zero =>
    simp only [pow_zero] at hn hm
    omega
  | succ w ih =>
    obtain ⟨hhigh, hlow⟩ := List.cons.inj h
    have hpos : 0 < 256 ^ w := Nat.pow_pos (by decide)
    have hbyte : ∀ k, k < 256 ^ (w + 1) → k / 256 ^ w < 256 := by
      intro k hk
      exact Nat.div_lt_of_lt_mul (by rwa [pow_succ] at hk)
    have hdiv : n / 256 ^ w = m / 256 ^ w := by
      have hval := congrArg UInt8.toNat hhigh
      rwa [UInt8.toNat_ofNat_of_lt' (hbyte n hn), UInt8.toNat_ofNat_of_lt' (hbyte m hm)] at hval
    have hmod : n % 256 ^ w = m % 256 ^ w := ih (Nat.mod_lt _ hpos) (Nat.mod_lt _ hpos) hlow
    rw [← Nat.div_add_mod n (256 ^ w), hdiv, hmod, Nat.div_add_mod]

/-- A number that fits fewer bytes, with zeros in front. -/
theorem wordBytes_add {w n : ℕ} (hn : n < 256 ^ w) (k : ℕ) :
    wordBytes (k + w) n = List.replicate k 0 ++ wordBytes w n := by
  induction k with
  | zero => rw [Nat.zero_add, List.replicate_zero, List.nil_append]
  | succ k ih =>
    have hfits : n < 256 ^ (k + w) := hn.trans_le (Nat.pow_le_pow_right (by decide) (Nat.le_add_left w k))
    rw [Nat.succ_add, wordBytes, Nat.div_eq_of_lt hfits, Nat.mod_eq_of_lt hfits, ih]
    rfl

theorem wordBytes_bytesWord (w : ℕ) (bs : List UInt8) : wordBytes w (bytesWord w bs) = padded w bs := by
  induction w generalizing bs with
  | zero => simp [wordBytes, padded]
  | succ w ih =>
    cases bs with
    | nil => simp [bytesWord, wordBytes_zero, padded]
    | cons b bs =>
      have hlt := bytesWord_lt w bs
      have hpos : 0 < 256 ^ w := Nat.pow_pos (by decide)
      have hdiv : (b.toNat * 256 ^ w + bytesWord w bs) / 256 ^ w = b.toNat := by
        rw [Nat.add_comm, Nat.add_mul_div_right _ _ hpos, Nat.div_eq_of_lt hlt, Nat.zero_add]
      have hmod : (b.toNat * 256 ^ w + bytesWord w bs) % 256 ^ w = bytesWord w bs := by
        rw [Nat.add_comm, Nat.add_mul_mod_self_right, Nat.mod_eq_of_lt hlt]
      simp [wordBytes, bytesWord, hdiv, hmod, ih, padded]

theorem length_pack (k : ℕ) (bs : List UInt8) : (pack k bs).length = k := by
  induction k generalizing bs with
  | zero => rfl
  | succ k ih => simp [pack, ih]

theorem unpack_pack (k : ℕ) (bs : List UInt8) : unpack (pack k bs) = padded (32 * k) bs := by
  induction k generalizing bs with
  | zero => simp [pack, unpack, padded]
  | succ k ih =>
    have hstep : unpack (pack (k + 1) bs) = padded 32 bs ++ padded (32 * k) (bs.drop 32) := by
      rw [← ih, ← wordBytes_bytesWord]
      rfl
    rw [hstep]
    unfold padded
    rw [show 32 * (k + 1) = 32 + 32 * k by omega, List.take_add]
    rcases Nat.lt_or_ge bs.length 32 with hlen | hlen
    · -- nothing is left for the other words
      rw [List.drop_eq_nil_of_le hlen.le]
      simp only [List.take_nil, List.nil_append, List.append_nil, List.append_assoc, List.length_nil,
        Nat.sub_zero]
      rw [← List.replicate_add]
      congr 2
      omega
    · rw [Nat.sub_eq_zero_of_le hlen, List.length_drop]
      simp only [List.replicate_zero, List.append_nil, List.append_assoc]
      congr 3
      omega

/-- The words of bytes, where there are no bytes too many. -/
def wordsOf (bs : List UInt8) : Option (List ℕ) :=
  if bs.length % 32 = 0 then some (pack (bs.length / 32) bs) else none

theorem length_unpack (ws : List ℕ) : (unpack ws).length = 32 * ws.length := by
  induction ws with
  | nil => rfl
  | cons w ws ih =>
    have hstep : unpack (w :: ws) = wordBytes 32 w ++ unpack ws := rfl
    rw [hstep, List.length_append, length_wordBytes, ih, List.length_cons]
    omega

theorem pack_lt {k w : ℕ} {bs : List UInt8} (h : w ∈ pack k bs) : w < 256 ^ 32 := by
  induction k generalizing bs with
  | zero => cases h
  | succ k ih =>
    rcases List.mem_cons.mp h with rfl | h
    · exact bytesWord_lt 32 bs
    · exact ih h

theorem bytesWord_wordBytes {w n : ℕ} (hn : n < 256 ^ w) (bs : List UInt8) :
    bytesWord w (wordBytes w n ++ bs) = n := by
  refine wordBytes_inj (bytesWord_lt w _) hn ?_
  rw [wordBytes_bytesWord]
  unfold padded
  have hlen : w - (wordBytes w n ++ bs).length = 0 := by
    rw [List.length_append, length_wordBytes]
    omega
  rw [hlen, List.take_left' (length_wordBytes w n), List.replicate_zero, List.append_nil]

theorem pack_unpack {ws : List ℕ} (h : ∀ w ∈ ws, w < 256 ^ 32) : pack ws.length (unpack ws) = ws := by
  induction ws with
  | nil => rfl
  | cons w ws ih =>
    rw [List.forall_mem_cons] at h
    have hstep : unpack (w :: ws) = wordBytes 32 w ++ unpack ws := rfl
    rw [hstep, List.length_cons, pack, bytesWord_wordBytes h.1, List.drop_left' (length_wordBytes 32 w), ih h.2]

/-- The words of bytes are those whose bytes they are. -/
theorem wordsOf_eq_some_iff {bs : List UInt8} {ws : List ℕ} :
    wordsOf bs = some ws ↔ unpack ws = bs ∧ ∀ w ∈ ws, w < 256 ^ 32 := by
  unfold wordsOf
  constructor
  · intro h
    simp only [Option.ite_none_right_eq_some, Option.some.injEq] at h
    obtain ⟨hlen, rfl⟩ := h
    refine ⟨?_, fun w hw => pack_lt hw⟩
    rw [unpack_pack, Nat.mul_div_cancel' (Nat.dvd_of_mod_eq_zero hlen)]
    unfold padded
    rw [List.take_length, Nat.sub_self, List.replicate_zero, List.append_nil]
  · rintro ⟨rfl, h⟩
    rw [length_unpack, if_pos (Nat.mul_mod_right 32 _), Nat.mul_div_cancel_left _ (by decide), pack_unpack h]

theorem take_padded {n : ℕ} {bs : List UInt8} (h : bs.length ≤ n) : (padded n bs).take bs.length = bs := by
  unfold padded
  rw [List.take_of_length_le h, List.take_left]

/-- `string`: the length in bytes, and the bytes in words. -/
def string : Codec String where
  dynamic := true
  size := 1
  valid _ := True
  encode s := s.toByteArray.data.size :: pack ((s.toByteArray.data.size + 31) / 32) s.toByteArray.data.toList
  decode data := data.head?.bind fun n =>
    let bytes := (unpack (data.tail.take ((n + 31) / 32))).take n
    if bytes.length = n then String.fromUTF8? ⟨bytes.toArray⟩ else none

theorem string_lawful : string.Lawful where
  length_eq _ _ hd := by cases hd
  valid_of_decode _ _ _ := trivial
  decode_of_prefix s data _ hpre := by
    obtain ⟨rest, rfl⟩ := hpre
    have hwords : (pack ((s.toByteArray.data.size + 31) / 32) s.toByteArray.data.toList ++ rest).take
        ((s.toByteArray.data.size + 31) / 32) =
        pack ((s.toByteArray.data.size + 31) / 32) s.toByteArray.data.toList :=
      List.take_left' (length_pack _ _)
    have hbytes : (padded (32 * ((s.toByteArray.data.size + 31) / 32)) s.toByteArray.data.toList).take
        s.toByteArray.data.size = s.toByteArray.data.toList := by
      rw [← Array.length_toList]
      exact take_padded (by omega)
    simp only [string, List.cons_append, List.head?_cons, List.tail_cons, Option.bind_some, hwords,
      unpack_pack, hbytes, Array.length_toList, if_true]
    exact dif_pos s.isValidUTF8

/-! ### Sequences -/

namespace Fields

/-- No value. -/
def nil : Fields Unit where
  dynamic := false
  headSize := 0
  valid _ := True
  layout _ _ := ([], [])
  parse _ _ := some ()

/-- The offset in the head, in bytes, leads to the value. -/
def follow (c : Codec α) (frame : List ℕ) (pos : ℕ) : Option α :=
  match frame[pos]? with
  | some o => if o % 32 = 0 then c.decode (frame.drop (o / 32)) else none
  | none => none

/-- The value whose head is at a place. -/
def valueAt (c : Codec α) (frame : List ℕ) (pos : ℕ) : Option α :=
  if c.dynamic then follow c frame pos else c.decode (frame.drop pos)

/-- A value in front of a sequence. -/
def cons (c : Codec α) (f : Fields β) : Fields (α × β) where
  dynamic := c.dynamic || f.dynamic
  headSize := c.headSize + f.headSize
  valid x := c.valid x.1 ∧ f.valid x.2
  layout x off :=
    if c.dynamic then
      let rest := f.layout x.2 (off + (c.encode x.1).length)
      ((32 * off) :: rest.1, c.encode x.1 ++ rest.2)
    else
      let rest := f.layout x.2 off
      (c.encode x.1 ++ rest.1, rest.2)
  parse frame pos :=
    (valueAt c frame pos).bind fun a => (f.parse frame (pos + c.headSize)).map fun b => (a, b)

/-- The values of a sequence as the parts of something else. -/
def via (f : Fields α) (mk : α → β) (parts : β → Option α) : Fields β where
  dynamic := f.dynamic
  headSize := f.headSize
  valid b := ∃ a, parts b = some a ∧ f.valid a
  layout b off := ((parts b).map fun a => f.layout a off).getD ([], [])
  parse frame pos := (f.parse frame pos).map mk

theorem nil_lawful : nil.Lawful where
  length_head _ _ _ := rfl
  no_tail _ _ _ _ := rfl
  parse_layout _ _ _ _ _ _ _ := rfl
  valid_of_parse _ _ _ _ := trivial

theorem prefix_drop_of_append {as bs frame : List ℕ} {pos : ℕ} (h : as ++ bs <+: frame.drop pos) :
    as <+: frame.drop pos ∧ bs <+: frame.drop (pos + as.length) := by
  obtain ⟨rest, hrest⟩ := h
  refine ⟨⟨bs ++ rest, by rw [← hrest, List.append_assoc]⟩, rest, ?_⟩
  rw [← List.drop_drop, ← hrest, List.append_assoc, List.drop_left]

theorem getElem?_of_cons_prefix {n pos : ℕ} {as frame : List ℕ} (h : n :: as <+: frame.drop pos) :
    frame[pos]? = some n := by
  obtain ⟨rest, hrest⟩ := h
  have hget : (frame.drop pos)[0]? = some n := by
    rw [← hrest]
    rfl
  rwa [List.getElem?_drop, Nat.add_zero] at hget

theorem valid_of_valueAt {c : Codec α} (hc : c.Lawful) {frame : List ℕ} {pos : ℕ} {a : α}
    (h : valueAt c frame pos = some a) : c.valid a := by
  unfold valueAt at h
  cases hd : c.dynamic with
  | true =>
    simp only [hd, if_true, follow] at h
    cases hget : frame[pos]? with
    | none => simp [hget] at h
    | some o =>
      rw [hget] at h
      simp only [Option.ite_none_right_eq_some] at h
      exact hc.valid_of_decode a _ h.2
  | false =>
    simp only [hd, Bool.false_eq_true, if_false] at h
    exact hc.valid_of_decode a _ h

theorem cons_lawful {c : Codec α} {f : Fields β} (hc : c.Lawful) (hf : f.Lawful) : (cons c f).Lawful where
  length_head x off hx := by
    cases hd : c.dynamic with
    | true =>
      have hrest := hf.length_head x.2 (off + (c.encode x.1).length) hx.2
      simp [cons, hd, Codec.headSize, hrest]
      omega
    | false =>
      have hrest := hf.length_head x.2 off hx.2
      have hlen := hc.length_eq x.1 hx.1 hd
      simp [cons, hd, Codec.headSize, hrest, hlen]
  no_tail x off hx hd := by
    obtain ⟨hcd, hfd⟩ : c.dynamic = false ∧ f.dynamic = false := by simpa [cons] using hd
    simpa [cons, hcd] using hf.no_tail x.2 off hx.2 hfd
  parse_layout x off pos frame hx hhead htail := by
    cases hd : c.dynamic with
    | true =>
      -- the offset is in the head, the value is the first of the tails
      simp only [cons, hd, if_true] at hhead htail
      obtain ⟨hvalue, htail⟩ := prefix_drop_of_append htail
      have hoffset := getElem?_of_cons_prefix hhead
      have hhead : [32 * off] ++ _ <+: frame.drop pos := hhead
      obtain ⟨-, hhead⟩ := prefix_drop_of_append hhead
      have ha : valueAt c frame pos = some x.1 := by
        unfold valueAt follow
        rw [if_pos hd, hoffset]
        dsimp only
        rw [if_pos (Nat.mul_mod_right 32 off), Nat.mul_div_cancel_left off (by decide)]
        exact hc.decode_of_prefix x.1 _ hx.1 hvalue
      have hb := hf.parse_layout x.2 _ _ frame hx.2 hhead htail
      have hsize : c.headSize = 1 := if_pos hd
      simp only [cons, ha, hsize, Option.bind_some]
      rw [show pos + 1 = pos + [32 * off].length from rfl, hb]
      rfl
    | false =>
      simp only [cons, hd, Bool.false_eq_true, if_false] at hhead htail
      obtain ⟨hvalue, hhead⟩ := prefix_drop_of_append hhead
      rw [hc.length_eq x.1 hx.1 hd] at hhead
      have ha : valueAt c frame pos = some x.1 := by
        unfold valueAt
        rw [hd, if_neg Bool.false_ne_true]
        exact hc.decode_of_prefix x.1 _ hx.1 hvalue
      have hb := hf.parse_layout x.2 _ _ frame hx.2 hhead htail
      have hsize : c.headSize = c.size := by
        unfold Codec.headSize
        rw [hd, if_neg Bool.false_ne_true]
      simp only [cons, ha, hsize, hb, Option.bind_some, Option.map_some]
  valid_of_parse x pos frame h := by
    obtain ⟨a, ha, h⟩ := Option.bind_eq_some_iff.mp h
    obtain ⟨b, hb, rfl⟩ := Option.map_eq_some_iff.mp h
    exact ⟨valid_of_valueAt hc ha, hf.valid_of_parse b _ frame hb⟩

theorem via_lawful {f : Fields α} {mk : α → β} {parts : β → Option α} (hf : f.Lawful)
    (h : ∀ a b, parts b = some a ↔ mk a = b) : (f.via mk parts).Lawful where
  length_head b off hb := by
    obtain ⟨a, ha, hvalid⟩ := hb
    simpa [via, ha] using hf.length_head a off hvalid
  no_tail b off hb hd := by
    obtain ⟨a, ha, hvalid⟩ := hb
    simpa [via, ha] using hf.no_tail a off hvalid hd
  parse_layout b off pos frame hb hhead htail := by
    obtain ⟨a, ha, hvalid⟩ := hb
    simp only [via, ha, Option.map_some, Option.getD_some] at hhead htail
    simp only [via, hf.parse_layout a off pos frame hvalid hhead htail, Option.map_some, (h a b).mp ha]
  valid_of_parse b pos frame hparse := by
    obtain ⟨a, ha, rfl⟩ := Option.map_eq_some_iff.mp hparse
    exact ⟨a, (h a (mk a)).mpr rfl, hf.valid_of_parse a pos frame ha⟩

end Fields

/-! ### Tuples, arrays, returns -/

/-- A tuple is a sequence with its own head. -/
def tuple (f : Fields α) : Codec α where
  dynamic := f.dynamic
  size := f.headSize
  valid := f.valid
  encode a := (f.layout a f.headSize).1 ++ (f.layout a f.headSize).2
  decode frame := f.parse frame 0

theorem tuple_lawful {f : Fields α} (hf : f.Lawful) : (tuple f).Lawful where
  length_eq a ha hd := by
    have hhead := hf.length_head a f.headSize ha
    have htail := hf.no_tail a f.headSize ha hd
    simp [tuple, hhead, htail]
  decode_of_prefix a data ha hpre := by
    have hpre : (f.layout a f.headSize).1 ++ (f.layout a f.headSize).2 <+: data.drop 0 := hpre
    obtain ⟨hhead, htail⟩ := Fields.prefix_drop_of_append hpre
    rw [hf.length_head a f.headSize ha, Nat.zero_add] at htail
    exact hf.parse_layout a f.headSize 0 data ha hhead htail
  valid_of_decode a data h := hf.valid_of_parse a 0 data h

/-- The head and the tail of a list that is not empty. -/
def uncons : List α → Option (α × List α)
  | [] => none
  | a :: as => some (a, as)

/-- `n` values of one kind. -/
def many (c : Codec α) : ℕ → Fields (List α)
  | 0 => Fields.nil.via (fun _ => []) fun as => if as.length = 0 then some () else none
  | n + 1 => (Fields.cons c (many c n)).via (fun x => x.1 :: x.2) uncons

theorem many_lawful {c : Codec α} (hc : c.Lawful) (n : ℕ) : (many c n).Lawful := by
  induction n with
  | zero =>
    refine Fields.via_lawful Fields.nil_lawful ?_
    intro _ as
    cases as <;> simp
  | succ n ih =>
    refine Fields.via_lawful (Fields.cons_lawful hc ih) ?_
    rintro ⟨a, as⟩ bs
    cases bs with
    | nil => simp [uncons]
    | cons b bs => simp [uncons, eq_comm]

theorem many_valid {c : Codec α} {n : ℕ} {as : List α} :
    (many c n).valid as ↔ as.length = n ∧ ∀ a ∈ as, c.valid a := by
  induction n generalizing as with
  | zero =>
    simp only [many, Fields.via, Fields.nil, and_true]
    cases as <;> simp
  | succ n ih =>
    simp only [many, Fields.via, Fields.cons]
    cases as with
    | nil => simp [uncons]
    | cons a as => simp [uncons, ih, and_left_comm]

/-- `t[]`: the length, and the values as a tuple. -/
def array (c : Codec α) : Codec (List α) where
  dynamic := true
  size := 1
  valid as := ∀ a ∈ as, c.valid a
  encode as := as.length :: (tuple (many c as.length)).encode as
  decode data := data.head?.bind fun n => (tuple (many c n)).decode data.tail

theorem array_lawful {c : Codec α} (hc : c.Lawful) : (array c).Lawful where
  length_eq _ _ hd := by cases hd
  decode_of_prefix as data has hpre := by
    have hlaw := tuple_lawful (many_lawful hc as.length)
    obtain ⟨rest, rfl⟩ := hpre
    exact hlaw.decode_of_prefix as _ (many_valid.mpr ⟨rfl, has⟩) ⟨rest, rfl⟩
  valid_of_decode as data h := by
    obtain ⟨n, -, hn⟩ := Option.bind_eq_some_iff.mp h
    exact (many_valid.mp ((tuple_lawful (many_lawful hc n)).valid_of_decode as _ hn)).2

namespace Fields

/-- What a function returns, in words. -/
def returns (f : Fields α) (a : α) : List ℕ := (tuple f).encode a

/-- The values are read, and written again they are what was read. -/
def strict (f : Fields α) (data : List ℕ) : Option α :=
  ((tuple f).decode data).filter fun a => decide (f.returns a = data)

/-- **Strict reading.**  A value is read exactly from what is written for it. -/
theorem strict_eq_some_iff {f : Fields α} (hf : f.Lawful) {data : List ℕ} {a : α} :
    f.strict data = some a ↔ f.valid a ∧ f.returns a = data := by
  have hlaw := tuple_lawful hf
  unfold strict
  rw [Option.filter_eq_some_iff, decide_eq_true_iff]
  constructor
  · rintro ⟨hdecode, hwritten⟩
    exact ⟨hlaw.valid_of_decode a data hdecode, hwritten⟩
  · rintro ⟨hvalid, rfl⟩
    exact ⟨hlaw.decode_of_prefix a _ hvalid (List.prefix_refl _), rfl⟩

/-- A reader of the same layout reads what was written. -/
theorem strict_returns {f : Fields α} (hf : f.Lawful) {a : α} (ha : f.valid a) :
    f.strict (f.returns a) = some a :=
  (strict_eq_some_iff hf).mpr ⟨ha, rfl⟩

/-- A reader that would have written another word at one place reads nothing. -/
theorem strict_eq_none {f : Fields α} (hf : f.Lawful) {data : List ℕ} (i n : ℕ)
    (h : ∀ a, f.valid a → (f.returns a)[i]? = some n) (hne : data[i]? ≠ some n) : f.strict data = none := by
  cases hread : f.strict data with
  | none => rfl
  | some a =>
    obtain ⟨hvalid, rfl⟩ := (strict_eq_some_iff hf).mp hread
    exact absurd (h a hvalid) hne

end Fields

end RobotMoney.Lib.Abi
