import Mathlib.Tactic

/-!
# Texts that end by themselves

A way to write values is self-ending if, whatever follows, the text says which value it is of and where it ends.
Then different values have different texts, and no text is a beginning of another.  Sequences of values are
written so up to a mark that no value starts with, and UTF-8 is a way to write characters so.
-/

namespace RobotMoney.Lib

variable {α β γ : Type} {f : α → List γ} {g : β → List γ}

def SelfEnding (f : α → List γ) : Prop := ∀ a b r r', f a ++ r = f b ++ r' → a = b ∧ r = r'

namespace SelfEnding

theorem of_read (read : List γ → Option (α × List γ)) (h : ∀ a r, read (f a ++ r) = some (a, r)) :
    SelfEnding f := by
  intro a b r r' heq
  have hread := h b r'
  rw [← heq, h a r] at hread
  exact Prod.mk.inj (Option.some.inj hread)

theorem injective (hf : SelfEnding f) : Function.Injective f := by
  intro a b h
  exact (hf a b [] [] (by rw [h])).1

/-- No text is a beginning of another. -/
theorem eq_of_prefix (hf : SelfEnding f) {a b : α} (h : f a <+: f b) : a = b := by
  obtain ⟨r, hr⟩ := h
  exact (hf a b r [] (by rw [hr, List.append_nil])).1

theorem comap (hf : SelfEnding f) {i : β → α} (hi : Function.Injective i) : SelfEnding fun b => f (i b) := by
  intro a b r r' h
  obtain ⟨heq, hr⟩ := hf _ _ _ _ h
  exact ⟨hi heq, hr⟩

/-- Something in front of every text. -/
theorem mark (hf : SelfEnding f) (start : List γ) : SelfEnding fun a => start ++ f a := by
  intro a b r r' h
  rw [List.append_assoc, List.append_assoc] at h
  exact hf a b r r' (List.append_cancel_left h)

/-- A text that ends where a mark is for the first time. -/
theorem of_notMem [DecidableEq γ] (hf : Function.Injective f) {x : γ} (hx : ∀ a, x ∉ f a) :
    SelfEnding fun a => f a ++ [x] := by
  have htake : ∀ a r, (f a ++ [x] ++ r).takeWhile (· ≠ x) = f a := by
    intro a r
    have hall : ∀ y ∈ f a, decide (y ≠ x) = true := by
      intro y hy
      exact decide_eq_true fun heq => hx a (heq ▸ hy)
    rw [List.append_assoc, List.takeWhile_append_of_pos hall]
    simp
  intro a b r r' h
  have hfirst := congrArg (List.takeWhile (· ≠ x)) h
  rw [htake, htake] at hfirst
  obtain rfl := hf hfirst
  exact ⟨rfl, List.append_cancel_left h⟩

/-- The texts of a sequence, and a mark. -/
def upTo (f : α → List γ) (stop : List γ) (as : List α) : List γ := as.flatMap f ++ stop

theorem upTo_nil (stop : List γ) : upTo f stop [] = stop := rfl

theorem upTo_cons (stop : List γ) (a : α) (as : List α) : upTo f stop (a :: as) = f a ++ upTo f stop as := by
  simp [upTo]

/-- A sequence ends at a mark that no value starts with. -/
theorem until_mark (hf : SelfEnding f) {stop : List γ} (hstop : ∀ a r r', f a ++ r ≠ stop ++ r') :
    SelfEnding (upTo f stop) := by
  intro as
  induction as with
  | nil =>
    rintro (_ | ⟨b, bs⟩) r r' h
    · exact ⟨rfl, List.append_cancel_left h⟩
    · rw [upTo_nil, upTo_cons, List.append_assoc] at h
      exact absurd h.symm (hstop _ _ _)
  | cons a as ih =>
    rintro (_ | ⟨b, bs⟩) r r' h
    · rw [upTo_nil, upTo_cons, List.append_assoc] at h
      exact absurd h (hstop _ _ _)
    · rw [upTo_cons, upTo_cons, List.append_assoc, List.append_assoc] at h
      obtain ⟨rfl, hrest⟩ := hf _ _ _ _ h
      obtain ⟨rfl, hr⟩ := ih bs r r' hrest
      exact ⟨rfl, hr⟩

/-- A beginning of a sequence of texts that is one itself is of a beginning of the values. -/
theorem prefix_of_flatMap (hf : SelfEnding f) (hne : ∀ a, f a ≠ []) {as bs : List α}
    (h : as.flatMap f <+: bs.flatMap f) : as <+: bs := by
  induction as generalizing bs with
  | nil => exact List.nil_prefix
  | cons a as ih =>
    obtain ⟨r, hr⟩ := h
    cases bs with
    | nil =>
      rw [List.flatMap_cons, List.flatMap_nil, List.append_assoc] at hr
      exact absurd (List.append_eq_nil_iff.mp hr).1 (hne a)
    | cons b bs =>
      rw [List.flatMap_cons, List.flatMap_cons, List.append_assoc] at hr
      obtain ⟨rfl, hrest⟩ := hf _ _ _ _ hr
      exact List.cons_prefix_cons.mpr ⟨rfl, ih ⟨r, hrest⟩⟩

end SelfEnding

/-! ### UTF-8 -/

theorem utf8EncodeChar_selfEnding : SelfEnding String.utf8EncodeChar := by
  intro c d r r' h
  have hbytes := congrArg (fun bs => ByteArray.utf8DecodeChar? bs.toByteArray 0) h
  simp only [List.toByteArray_append, ByteArray.utf8DecodeChar?_utf8EncodeChar_append] at hbytes
  obtain rfl := Option.some.inj hbytes
  exact ⟨rfl, List.append_cancel_left h⟩

/-- The bytes of a text. -/
theorem toByteArray_toList (s : String) : s.toByteArray.data.toList = s.toList.flatMap String.utf8EncodeChar := by
  have hchars : s.toByteArray = s.toList.utf8Encode := by
    rw [← String.toByteArray_ofList, String.ofList_toList]
  rw [hchars, List.utf8Encode, List.toList_data_toByteArray]

/-- A text whose bytes are the first bytes of another is a beginning of it. -/
theorem toList_prefix_of_bytes {s t : String} (h : s.toByteArray.data.toList <+: t.toByteArray.data.toList) :
    s.toList <+: t.toList := by
  rw [toByteArray_toList, toByteArray_toList] at h
  exact utf8EncodeChar_selfEnding.prefix_of_flatMap (fun _ => String.utf8EncodeChar_ne_nil) h

end RobotMoney.Lib
