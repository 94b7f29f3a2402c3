import RobotMoney.Lib.Token

/-!
# Transfers to one account

`collect t dst l` is the ledger `t` after the transfers `l`, each a sender and an amount, to the account
`dst`.  They add to the receiver what they take from the senders (`collect_balanceOf`), and they can be
put before or after any operation that takes nothing from the senders: it succeeds on the ledger after
the transfers where it succeeds on the ledger before them, and both orders lead to the same ledger.
-/

set_option linter.unusedSectionVars false

namespace RobotMoney.Lib

namespace Token

variable {A : Type} [Fintype A] [DecidableEq A] {ε ε' : Type} {t t' t₁ : Token A}

/-! ### The order of two moves -/

section Moves

variable {f : A → ℕ} {src dst donor payee a : A} {v d : ℕ}

/-- The balance of an account after a move, whoever it is. -/
theorem moved_apply (x : A) :
    moved f src dst v x = (if x = src then f x - v else f x) + (if x = dst then v else 0) := by
  unfold moved
  by_cases hd : x = dst
  · subst hd
    by_cases hs : x = src
    · subst hs
      simp
    · simp [hs]
  · by_cases hs : x = src
    · subst hs
      simp [hd]
    · simp [hd, hs]

theorem moved_comm (hne : donor ≠ src) (hv : v ≤ f src) (hd : d ≤ f donor) :
    moved (moved f donor payee d) src dst v = moved (moved f src dst v) donor payee d := by
  funext x
  simp only [moved_apply]
  by_cases hs : x = src
  · subst hs
    rw [if_neg (Ne.symm hne), if_pos rfl, if_pos rfl, if_neg (Ne.symm hne)]
    omega
  · rw [if_neg hs, if_neg hs]
    by_cases hx : x = donor
    · subst hx
      rw [if_pos rfl, if_pos rfl]
      omega
    · rw [if_neg hx, if_neg hx]
      omega

end Moves

/-! ### The order of a transfer and another operation -/

section Ops

variable [Zero A] {src dst donor payee owner spender : A} {v d : ℕ}

theorem transfer_comm (hne : donor ≠ src) (hgift : (t.transfer donor payee d : Call ε' _) = .ok t₁)
    (h : (t.transfer src dst v : Call ε _) = .ok t') :
    ∃ t₁', (t₁.transfer src dst v : Call ε _) = .ok t₁' ∧
      (t'.transfer donor payee d : Call ε' _) = .ok t₁' := by
  obtain ⟨hdonor, hto, hd, rfl⟩ := transfer_eq_ok.mp hgift
  obtain ⟨hsrc, hdst, hv, rfl⟩ := transfer_eq_ok.mp h
  have hv' : v ≤ (t.move donor payee d hd).balanceOf src := hv.trans (le_moved hne.symm)
  have hd' : d ≤ (t.move src dst v hv).balanceOf donor := hd.trans (le_moved hne)
  refine ⟨_, transfer_eq_ok.mpr ⟨hsrc, hdst, hv', rfl⟩, transfer_eq_ok.mpr ⟨hdonor, hto, hd', ?_⟩⟩
  exact eq_of_entries (moved_comm hne hv hd) rfl rfl

theorem setAllowance_comm (hgift : (t.transfer donor payee d : Call ε' _) = .ok t₁) :
    ((t.setAllowance owner spender v).transfer donor payee d : Call ε' _) =
      .ok (t₁.setAllowance owner spender v) := by
  obtain ⟨hdonor, hto, hd, rfl⟩ := transfer_eq_ok.mp hgift
  exact transfer_eq_ok.mpr ⟨hdonor, hto, hd, rfl⟩

theorem spendAllowance_comm (hgift : (t.transfer donor payee d : Call ε' _) = .ok t₁)
    (h : (t.spendAllowance owner spender v : Call ε _) = .ok t') :
    ∃ t₁', (t₁.spendAllowance owner spender v : Call ε _) = .ok t₁' ∧
      (t'.transfer donor payee d : Call ε' _) = .ok t₁' := by
  have hallow : t₁.allowance = t.allowance := by
    obtain ⟨-, -, _, rfl⟩ := transfer_eq_ok.mp hgift
    rfl
  unfold spendAllowance at h ⊢
  rw [hallow]
  split at h
  · split at h
    · cases h
    · obtain ⟨howner, hspender, rfl⟩ := approve_eq_ok.mp h
      rw [if_pos ‹_›, if_neg ‹_›]
      exact ⟨_, approve_eq_ok.mpr ⟨howner, hspender, rfl⟩, setAllowance_comm hgift⟩
  · cases h
    rw [if_neg ‹_›]
    exact ⟨t₁, rfl, hgift⟩

theorem transferFrom_comm (hne : donor ≠ src) (hgift : (t.transfer donor payee d : Call ε' _) = .ok t₁)
    (h : (t.transferFrom spender src dst v : Call ε _) = .ok t') :
    ∃ t₁', (t₁.transferFrom spender src dst v : Call ε _) = .ok t₁' ∧
      (t'.transfer donor payee d : Call ε' _) = .ok t₁' := by
  obtain ⟨u, hspend, htransfer⟩ := bind_eq_ok.mp h
  obtain ⟨u₁, hspend₁, hgift₁⟩ := spendAllowance_comm hgift hspend
  obtain ⟨t₁', htransfer₁, hgift₂⟩ := transfer_comm hne hgift₁ htransfer
  exact ⟨t₁', bind_eq_ok.mpr ⟨u₁, hspend₁, htransfer₁⟩, hgift₂⟩

theorem mint_comm (hgift : (t.transfer donor payee d : Call ε' _) = .ok t₁)
    (h : (t.mint dst v : Call ε _) = .ok t') :
    ∃ t₁', (t₁.mint dst v : Call ε _) = .ok t₁' ∧ (t'.transfer donor payee d : Call ε' _) = .ok t₁' := by
  obtain ⟨hdonor, hto, hd, rfl⟩ := transfer_eq_ok.mp hgift
  obtain ⟨hdst, hlt, rfl⟩ := mint_eq_ok.mp h
  have hd' : d ≤ (t.issue dst v hlt).balanceOf donor := by
    change d ≤ Function.update t.balanceOf dst (t.balanceOf dst + v) donor
    by_cases hx : donor = dst
    · subst hx
      rw [Function.update_self]
      omega
    · rw [Function.update_of_ne hx]
      exact hd
  refine ⟨_, mint_eq_ok.mpr ⟨hdst, hlt, rfl⟩, transfer_eq_ok.mpr ⟨hdonor, hto, hd', ?_⟩⟩
  refine eq_of_entries ?_ rfl rfl
  funext x
  change Function.update (moved t.balanceOf donor payee d) dst (moved t.balanceOf donor payee d dst + v) x =
    moved (Function.update t.balanceOf dst (t.balanceOf dst + v)) donor payee d x
  by_cases hx : x = dst
  · subst hx
    simp only [Function.update_self, moved_apply]
    split <;> rename_i hxd
    · subst hxd
      omega
    · omega
  · simp only [Function.update_of_ne hx, moved_apply]

theorem burn_comm (hne : donor ≠ src) (hgift : (t.transfer donor payee d : Call ε' _) = .ok t₁)
    (h : (t.burn src v : Call ε _) = .ok t') :
    ∃ t₁', (t₁.burn src v : Call ε _) = .ok t₁' ∧ (t'.transfer donor payee d : Call ε' _) = .ok t₁' := by
  obtain ⟨hdonor, hto, hd, rfl⟩ := transfer_eq_ok.mp hgift
  obtain ⟨hsrc, hv, rfl⟩ := burn_eq_ok.mp h
  have hv' : v ≤ (t.move donor payee d hd).balanceOf src := hv.trans (le_moved hne.symm)
  have hd' : d ≤ (t.destroy src v hv).balanceOf donor := by
    change d ≤ Function.update t.balanceOf src (t.balanceOf src - v) donor
    rw [Function.update_of_ne hne]
    exact hd
  refine ⟨_, burn_eq_ok.mpr ⟨hsrc, hv', rfl⟩, transfer_eq_ok.mpr ⟨hdonor, hto, hd', ?_⟩⟩
  refine eq_of_entries ?_ rfl rfl
  funext x
  change Function.update (moved t.balanceOf donor payee d) src (moved t.balanceOf donor payee d src - v) x =
    moved (Function.update t.balanceOf src (t.balanceOf src - v)) donor payee d x
  by_cases hx : x = src
  · subst hx
    simp only [Function.update_self, moved_apply, if_neg hne.symm]
    omega
  · simp only [Function.update_of_ne hx, moved_apply]

/-! ### Many transfers -/

/-- The transfers `l` of the senders to `dst`, one after the other. -/
def collect (t : Token A) (dst : A) : List (A × ℕ) → Call ε (Token A)
  | [] => .ok t
  | (src, v) :: l => do
    let t ← t.transfer src dst v
    collect t dst l

/-- What an account sends. -/
def sentBy (x : A) (l : List (A × ℕ)) : ℕ := (l.map fun g => if x = g.1 then g.2 else 0).sum

/-- What the receiver gets. -/
def collected (l : List (A × ℕ)) : ℕ := (l.map Prod.snd).sum

variable {l : List (A × ℕ)}

theorem collect_balanceOf (h : (t.collect payee l : Call ε _) = .ok t₁) (x : A) :
    t₁.balanceOf x + sentBy x l = t.balanceOf x + if x = payee then collected l else 0 := by
  induction l generalizing t with
  | nil =>
    cases h
    simp [sentBy, collected]
  | cons g l ih =>
    obtain ⟨src, v⟩ := g
    obtain ⟨u, hu, hrest⟩ := bind_eq_ok.mp h
    obtain ⟨-, -, hv, rfl⟩ := transfer_eq_ok.mp hu
    have hx := ih hrest
    change _ = moved t.balanceOf src payee v x + _ at hx
    rw [moved_apply] at hx
    simp only [sentBy, collected, List.map_cons, List.sum_cons] at hx ⊢
    by_cases hs : x = src
    · subst hs
      simp only [if_true] at hx ⊢
      by_cases hd : x = payee
      · simp only [hd, if_true] at hx ⊢
        rw [hd] at hv
        omega
      · simp only [hd, if_false] at hx ⊢
        omega
    · simp only [hs, if_false] at hx ⊢
      by_cases hd : x = payee
      · simp only [hd, if_true] at hx ⊢
        omega
      · simp only [hd, if_false] at hx ⊢
        omega

theorem sentBy_eq_zero {x : A} (hl : ∀ g ∈ l, g.1 ≠ x) : sentBy x l = 0 := by
  unfold sentBy
  rw [List.sum_eq_zero]
  intro n hn
  obtain ⟨g, hg, rfl⟩ := List.mem_map.mp hn
  exact if_neg (hl g hg).symm

/-- The receiver, who sends nothing herself, has more by what is collected. -/
theorem collect_receiver (h : (t.collect payee l : Call ε _) = .ok t₁) (hl : ∀ g ∈ l, g.1 ≠ payee) :
    t₁.balanceOf payee = t.balanceOf payee + collected l := by
  have hbal := collect_balanceOf h payee
  rw [sentBy_eq_zero hl, if_pos rfl] at hbal
  exact hbal

/-- **The order of transfers and an operation.**  An operation that commutes with one transfer from each
of the senders commutes with all of them. -/
theorem collect_comm {f : Token A → Call ε (Token A)}
    (hf : ∀ g ∈ l, ∀ {t t₁ t' : Token A}, (t.transfer g.1 payee g.2 : Call ε' _) = .ok t₁ → f t = .ok t' →
      ∃ t₁', f t₁ = .ok t₁' ∧ (t'.transfer g.1 payee g.2 : Call ε' _) = .ok t₁')
    (h : (t.collect payee l : Call ε' _) = .ok t₁) (ht : f t = .ok t') :
    ∃ t₁', f t₁ = .ok t₁' ∧ (t'.collect payee l : Call ε' _) = .ok t₁' := by
  induction l generalizing t t' with
  | nil =>
    cases h
    exact ⟨t', ht, rfl⟩
  | cons g l ih =>
    obtain ⟨u, hu, hrest⟩ := bind_eq_ok.mp h
    obtain ⟨u', hfu, hu'⟩ := hf g List.mem_cons_self hu ht
    obtain ⟨t₁', hft₁, hrest'⟩ := ih (fun g' hg' => hf g' (List.mem_cons_of_mem _ hg')) hrest hfu
    exact ⟨t₁', hft₁, bind_eq_ok.mpr ⟨u', hu', hrest'⟩⟩

theorem collect_transferFrom (hl : ∀ g ∈ l, g.1 ≠ src) (h : (t.collect payee l : Call ε' _) = .ok t₁)
    (ht : (t.transferFrom spender src dst v : Call ε _) = .ok t') :
    ∃ t₁', (t₁.transferFrom spender src dst v : Call ε _) = .ok t₁' ∧
      (t'.collect payee l : Call ε' _) = .ok t₁' :=
  collect_comm (fun g hg => transferFrom_comm (hl g hg)) h ht

theorem collect_setAllowance (h : (t.collect payee l : Call ε' _) = .ok t₁) :
    ((t.setAllowance owner spender v).collect payee l : Call ε' _) =
      .ok (t₁.setAllowance owner spender v) := by
  induction l generalizing t with
  | nil =>
    cases h
    rfl
  | cons g l ih =>
    obtain ⟨u, hu, hrest⟩ := bind_eq_ok.mp h
    exact bind_eq_ok.mpr ⟨_, setAllowance_comm hu, ih hrest⟩

end Ops

end Token

end RobotMoney.Lib
