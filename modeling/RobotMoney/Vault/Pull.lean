import RobotMoney.Lib.Proportion
import RobotMoney.Vault.SharePrice

/-!
# What a withdrawal can pull

`_pullProportional` takes from each active adapter its share of what is needed, rounded down, and asks
the last one for the dust.  The dust is there only if the last adapter holds more than its own share:
`Payable` is the exact condition, and `payable_iff` says that it is one, for adapters that are exact and
live.  An adapter that was just added is empty and last, and then a withdrawal may fail with all of its
value in the vault (`payout_fails`).
-/

namespace RobotMoney.Vault

open RobotMoney.Lib State

variable {V : Type} {env : Env V} {s : State V} {w : World V} {ads : List Address}

/-- The active adapters of a list of entries. -/
def active (is : List AdapterInfo) : List Address :=
  (is.filter fun i => i.active).map fun i => i.adapter

theorem active_cons_of_not {i : AdapterInfo} {is : List AdapterInfo} (h : i.active = false) :
    active (i :: is) = active is := by
  simp [active, h]

theorem active_cons {i : AdapterInfo} {is : List AdapterInfo} (h : i.active = true) :
    active (i :: is) = i.adapter :: active is := by
  simp [active, h]

/-- The shares of the adapters `as` in the amount `x`, out of `T`. -/
def pulls (env : Env V) (w : World V) (x T : ℕ) (as : List Address) : List ℕ :=
  shares x T (as.map (env.adapterAssets w))

/-! ### The loop -/

/-- What the loop did to the adapters `as`: each gave its share, nobody else gave anything, and if
something remains then the last adapter visited is the last of all. -/
structure Pulled (env : Env V) (ads : List Address) (x T : ℕ) (w : World V) (as : List Address)
    (rem : ℕ) (last : Option Address) (w' : World V) (rem' : ℕ) (last' : Option Address) : Prop where
  rem_eq : rem' + (pulls env w x T as).sum = rem
  idle_eq : w'.usdc.balanceOf env.self = w.usdc.balanceOf env.self + (pulls env w x T as).sum
  gave : ∀ a ∈ as, env.adapterAssets w' a + share x T (env.adapterAssets w a) = env.adapterAssets w a
  kept : ∀ a ∈ ads, a ∉ as → env.adapterAssets w' a = env.adapterAssets w a
  last_eq : 0 < rem' → last' = as.getLast?.or last

section Loop

variable {x T : ℕ}

theorem Pulled.nil {rem : ℕ} {last : Option Address} :
    Pulled env ads x T w [] rem last w rem last := by
  refine ⟨rfl, rfl, ?_, ?_, ?_⟩
  · intro a ha
    cases ha
  · intro a _ _
    rfl
  · intro _
    rfl

/-- Nothing remains, so nothing more was due. -/
theorem Pulled.stop {as : List Address} {last : Option Address}
    (h : (pulls env w x T as).sum = 0) : Pulled env ads x T w as 0 last w 0 last := by
  refine ⟨?_, ?_, ?_, ?_, ?_⟩
  · omega
  · omega
  · intro a ha
    have hzero : share x T (env.adapterAssets w a) = 0 := by
      refine List.sum_eq_zero_iff.mp h _ ?_
      exact List.mem_map_of_mem (List.mem_map_of_mem ha)
    omega
  · intro a _ _
    rfl
  · intro h
    omega

theorem pulls_congr {w' : World V} {as : List Address}
    (h : ∀ a ∈ as, env.adapterAssets w' a = env.adapterAssets w a) :
    pulls env w' x T as = pulls env w x T as := by
  unfold pulls
  rw [List.map_congr_left h]

/-- One adapter gives its share, then the others. -/
theorem Pulled.cons {a : Address} {as : List Address} {w₁ w' : World V} {r r' : ℕ}
    {l l' : Option Address} (ha : a ∈ ads) (has : ∀ b ∈ as, b ∈ ads) (hnew : a ∉ as)
    (hidle : w₁.usdc.balanceOf env.self =
      w.usdc.balanceOf env.self + share x T (env.adapterAssets w a))
    (hgave : env.adapterAssets w₁ a + share x T (env.adapterAssets w a) = env.adapterAssets w a)
    (hkept : ∀ b ∈ ads, b ≠ a → env.adapterAssets w₁ b = env.adapterAssets w b)
    (h : Pulled env ads x T w₁ as r (some a) w' r' l') :
    Pulled env ads x T w (a :: as) (r + share x T (env.adapterAssets w a)) l w' r' l' := by
  have hsame : ∀ b ∈ as, env.adapterAssets w₁ b = env.adapterAssets w b := by
    intro b hb
    refine hkept b (has b hb) ?_
    rintro rfl
    exact hnew hb
  have hpulls := pulls_congr (x := x) (T := T) hsame
  have hcons : (pulls env w x T (a :: as)).sum =
      share x T (env.adapterAssets w a) + (pulls env w x T as).sum := rfl
  refine ⟨?_, ?_, ?_, ?_, ?_⟩
  · have := h.rem_eq
    rw [hpulls] at this
    omega
  · have := h.idle_eq
    rw [hpulls] at this
    omega
  · intro b hb
    rcases List.mem_cons.mp hb with rfl | hb
    · rw [h.kept b ha hnew]
      exact hgave
    · have := h.gave b hb
      rw [hsame b hb] at this
      exact this
  · intro b hb hbas
    obtain ⟨hne, hbas⟩ := not_or.mp (List.mem_cons.not.mp hbas)
    rw [h.kept b hb hbas]
    exact hkept b hb hne
  · intro hpos
    rw [h.last_eq hpos]
    cases as with
    | nil => rfl
    | cons b as => simp [List.getLast?_cons]

/-- What the adapters of the rest of the loop report does not depend on the one before. -/
theorem kept_rest {a : Address} {as : List Address} {w' : World V} (hnodup : (a :: as).Nodup)
    (hads : ∀ b ∈ a :: as, b ∈ ads)
    (hkept : ∀ b ∈ ads, b ≠ a → env.adapterAssets w' b = env.adapterAssets w b) :
    ∀ b ∈ as, env.adapterAssets w' b = env.adapterAssets w b := by
  intro b hb
  refine hkept b (hads b (List.mem_cons_of_mem a hb)) ?_
  rintro rfl
  exact (List.nodup_cons.mp hnodup).1 hb

/-- The loop does not revert when its products fit, and then it takes the shares. -/
theorem pullLoop_pulled (hlive : Live env ads) (hxT : x ≤ T) {is : List AdapterInfo}
    (hads : ∀ a ∈ active is, a ∈ ads) (hnodup : (active is).Nodup)
    (hfits : ∀ a ∈ active is, x * env.adapterAssets w a < wordSize) {r : ℕ} {l : Option Address}
    (hsum : (pulls env w x T (active is)).sum ≤ r) :
    ∃ w' r' l', pullLoop env x T w is r l = .ok (w', r', l') ∧
      Pulled env ads x T w (active is) r l w' r' l' := by
  induction is generalizing w r l with
  | nil => exact ⟨w, r, l, rfl, .nil⟩
  | cons i is ih =>
    unfold State.pullLoop
    by_cases hrem : r = 0
    · subst hrem
      rw [if_pos rfl]
      exact ⟨w, 0, l, rfl, .stop (Nat.le_zero.mp hsum)⟩
    rw [if_neg hrem]
    by_cases hi : i.active = false
    · rw [active_cons_of_not hi] at hads hnodup hfits hsum ⊢
      rw [if_pos hi]
      exact ih hads hnodup hfits hsum
    rw [if_neg hi]
    rw [active_cons (by simpa using hi)] at hads hnodup hfits hsum ⊢
    set a := i.adapter
    have ha : a ∈ ads := hads a List.mem_cons_self
    have hrest : ∀ b ∈ active is, b ∈ ads := fun b hb => hads b (List.mem_cons_of_mem a hb)
    obtain ⟨hnew, hnodup'⟩ := List.nodup_cons.mp hnodup
    have hsum' : share x T (env.adapterAssets w a) + (pulls env w x T (active is)).sum ≤ r := hsum
    have hproduct : (mulU x (env.adapterAssets w a) : Call VaultError ℕ) =
        .ok (x * env.adapterAssets w a) :=
      mulU_eq_ok.mpr ⟨hfits a List.mem_cons_self, rfl⟩
    have hpull : min (x * env.adapterAssets w a / T) r = share x T (env.adapterAssets w a) := by
      unfold share at hsum' ⊢
      omega
    rw [hproduct, ok_bind]
    dsimp only
    rw [hpull]
    by_cases hzero : share x T (env.adapterAssets w a) = 0
    · rw [if_pos hzero]
      obtain ⟨w', r', l', hok, hpulled⟩ := ih (l := some a) hrest hnodup'
        (fun b hb => hfits b (List.mem_cons_of_mem a hb)) (r := r) (by omega)
      refine ⟨w', r', l', hok, ?_⟩
      have hcons := hpulled.cons (l := l) ha hrest hnew (by omega) (by omega) (fun _ _ _ => rfl)
      rwa [hzero] at hcons
    · rw [if_neg hzero]
      obtain ⟨⟨w₁, y⟩, hwithdraw⟩ := hlive.live w a (share x T (env.adapterAssets w a)) ha
      obtain ⟨hy, hidle, hgave, hkept⟩ := hlive.withdraw w a _ w₁ y ha hwithdraw
      have hle : share x T (env.adapterAssets w a) ≤ env.adapterAssets w a := share_le_weight hxT
      rw [Nat.min_eq_left hle] at hy
      subst hy
      have hsame := kept_rest hnodup hads hkept
      obtain ⟨w', r', l', hok, hpulled⟩ := ih (w := w₁) (l := some a) hrest hnodup'
        (by
          intro b hb
          rw [hsame b hb]
          exact hfits b (List.mem_cons_of_mem a hb))
        (r := r - share x T (env.adapterAssets w a))
        (by
          rw [pulls_congr hsame]
          omega)
      refine ⟨w', r', l', ?_, ?_⟩
      · rw [hwithdraw]
        show (subU r _ >>= _) = _
        rw [subU_eq_ok.mpr ⟨(show share x T (env.adapterAssets w a) ≤ r by omega), rfl⟩]
        exact hok
      · have hcons := hpulled.cons (l := l) ha hrest hnew hidle hgave hkept
        rwa [Nat.sub_add_cancel (by omega)] at hcons

/-- The products fit when the loop does not revert: those it did not form are below `T`. -/
theorem pullLoop_fits (hexact : ExactOut env ads) (hT₀ : 0 < T) (hT : T < wordSize) (hxT : x ≤ T)
    {is : List AdapterInfo} (hads : ∀ a ∈ active is, a ∈ ads) (hnodup : (active is).Nodup) {rem : ℕ}
    {last : Option Address} (hsum : (pulls env w x T (active is)).sum ≤ rem)
    {r : World V × ℕ × Option Address} (h : pullLoop env x T w is rem last = .ok r) :
    ∀ a ∈ active is, x * env.adapterAssets w a < wordSize := by
  induction is generalizing w rem last with
  | nil =>
    intro a ha
    cases ha
  | cons i is ih =>
    unfold State.pullLoop at h
    by_cases hrem : rem = 0
    · subst hrem
      intro a ha
      have hzero : share x T (env.adapterAssets w a) = 0 := by
        refine List.sum_eq_zero_iff.mp (Nat.le_zero.mp hsum) _ ?_
        exact List.mem_map_of_mem (List.mem_map_of_mem ha)
      have hlt := lt_share_mul_add (x := x) (w := env.adapterAssets w a) hT₀
      rw [hzero] at hlt
      omega
    rw [if_neg hrem] at h
    by_cases hi : i.active = false
    · rw [active_cons_of_not hi] at hads hnodup hsum ⊢
      rw [if_pos hi] at h
      exact ih hads hnodup hsum h
    rw [if_neg hi] at h
    rw [active_cons (by simpa using hi)] at hads hnodup hsum ⊢
    set a := i.adapter
    have ha : a ∈ ads := hads a List.mem_cons_self
    have hrest : ∀ b ∈ active is, b ∈ ads := fun b hb => hads b (List.mem_cons_of_mem a hb)
    obtain ⟨-, hnodup'⟩ := List.nodup_cons.mp hnodup
    have hsum' : share x T (env.adapterAssets w a) + (pulls env w x T (active is)).sum ≤ rem := hsum
    obtain ⟨product, hproduct, h⟩ := bind_eq_ok.mp h
    obtain ⟨hfit, rfl⟩ := mulU_eq_ok.mp hproduct
    have hpull : min (x * env.adapterAssets w a / T) rem = share x T (env.adapterAssets w a) := by
      unfold share at hsum' ⊢
      omega
    dsimp only at h
    rw [hpull] at h
    have htail : ∀ b ∈ active is, x * env.adapterAssets w b < wordSize := by
      split at h
      · exact ih hrest hnodup' (by omega) h
      · simp only [bind_eq_ok, inner_eq_ok, Prod.exists, subU_eq_ok] at h
        obtain ⟨w₁, y, hwithdraw, rem', ⟨hy, rfl⟩, h⟩ := h
        obtain ⟨hy', -, -, hkept⟩ := hexact.withdraw w a _ w₁ y ha hwithdraw
        have hle : share x T (env.adapterAssets w a) ≤ env.adapterAssets w a := share_le_weight hxT
        rw [Nat.min_eq_left hle] at hy'
        subst hy'
        have hsame := kept_rest hnodup hads hkept
        intro b hb
        rw [← hsame b hb]
        refine ih hrest hnodup' ?_ h b hb
        rw [pulls_congr hsame]
        omega
    intro b hb
    rcases List.mem_cons.mp hb with rfl | hb
    · exact hfit
    · exact htail b hb

/-- The dust is taken from the last adapter, as far as it holds it. -/
theorem pullDust_spec (hlive : Live env ads) {a : Address} (ha : a ∈ ads) {r : ℕ} {l : Option Address}
    (hl : 0 < r → l = some a) :
    ∃ w', pullDust env w r l = .ok w' ∧
      w'.usdc.balanceOf env.self = w.usdc.balanceOf env.self + min r (env.adapterAssets w a) := by
  rcases Nat.eq_zero_or_pos r with rfl | hpos
  · refine ⟨w, ?_, by omega⟩
    cases l <;> rfl
  · obtain ⟨⟨w', y⟩, hwithdraw⟩ := hlive.live w a r ha
    obtain ⟨rfl, hidle, -, -⟩ := hlive.withdraw w a r w' y ha hwithdraw
    refine ⟨w', ?_, hidle⟩
    rw [hl hpos]
    unfold State.pullDust
    simp only [if_neg (Nat.ne_of_gt hpos), hwithdraw]
    rfl

end Loop

/-! ### When a withdrawal is payable -/

/-- The rest `R` of a withdrawal is covered by the last of the balances `bs` and the shares, rounded
down, of the others. -/
def Covered (R : ℕ) (bs : List ℕ) : Prop :=
  R ≤ (shares R bs.sum bs.dropLast).sum + bs.getLastD 0

instance (R : ℕ) (bs : List ℕ) : Decidable (Covered R bs) := inferInstanceAs (Decidable (_ ≤ _))

/-- A withdrawal of `g` is payable: idle USDC covers it; or the products of the rest with the adapters'
balances fit a word, and the adapters' balances cover the rest. -/
def State.Payable (env : Env V) (s : State V) (g : ℕ) : Prop :=
  g ≤ s.idle env ∨
    (∀ b ∈ s.adapterBalances env, (g - s.idle env) * b < wordSize) ∧
      Covered (g - s.idle env) (s.adapterBalances env)

instance (env : Env V) (s : State V) (g : ℕ) : Decidable (s.Payable env g) :=
  inferInstanceAs (Decidable (_ ∨ _))

section Payable

variable {A g : ℕ} (hlive : Live env s.activeAdapters) (hnodup : s.activeAdapters.Nodup)
  (hA : s.totalAssets env = .ok A) (hg : g ≤ A) (hidle : s.idle env < g)

include hA hg hidle

/-- What is needed of the adapters is there. -/
theorem rest_bounds : 0 < (s.adapterBalances env).sum ∧ (s.adapterBalances env).sum < wordSize ∧
    g - s.idle env ≤ (s.adapterBalances env).sum := by
  obtain ⟨hlt, rfl⟩ := totalAssets_eq_ok.mp hA
  have hwealth : wealth env s.activeAdapters s.world = s.idle env + (s.adapterBalances env).sum := rfl
  omega

/-- Beyond the idle USDC, `_pullProportional` is its loop and its last step. -/
theorem pullProportional_eq : s.pullProportional env g =
    pullLoop env (g - s.idle env) (s.adapterBalances env).sum s.world s.adapters (g - s.idle env) none >>=
      fun r => pullDust env r.1 r.2.1 r.2.2 >>= fun w => pure { s with world := w } := by
  obtain ⟨hT₀, hT, hRT⟩ := rest_bounds hA hg hidle
  have htotal : (sumU 0 (s.adapterBalances env) : Call VaultError ℕ) =
      .ok (s.adapterBalances env).sum := by
    refine (sumU_eq_ok (by decide)).mpr ?_
    omega
  unfold State.pullProportional
  rw [if_neg (by omega), if_neg (by omega), htotal, ok_bind, if_neg (by omega), Nat.min_eq_left hRT]

theorem pulls_le_rest : (pulls env s.world (g - s.idle env) (s.adapterBalances env).sum
    s.activeAdapters).sum ≤ g - s.idle env :=
  shares_sum_le (rest_bounds hA hg hidle).1 (Nat.le_of_eq rfl)

include hlive hnodup

/-- If it does not revert, the products fit. -/
theorem pullProportional_fits {s' : State V} (h : s.pullProportional env g = .ok s') :
    ∀ b ∈ s.adapterBalances env, (g - s.idle env) * b < wordSize := by
  obtain ⟨hT₀, hT, hRT⟩ := rest_bounds hA hg hidle
  rw [pullProportional_eq hA hg hidle] at h
  obtain ⟨r, hloop, -⟩ := bind_eq_ok.mp h
  refine List.forall_mem_map.mpr ?_
  exact pullLoop_fits hlive.toExactOut hT₀ hT hRT (fun a ha => ha) hnodup
    (pulls_le_rest hA hg hidle) hloop

/-- If the products fit it does not revert, and it brings what is needed exactly when the balances
cover it. -/
theorem pullProportional_covers
    (hfits : ∀ b ∈ s.adapterBalances env, (g - s.idle env) * b < wordSize) :
    ∃ s', s.pullProportional env g = .ok s' ∧
      (g ≤ s'.idle env ↔ Covered (g - s.idle env) (s.adapterBalances env)) := by
  obtain ⟨hT₀, hT, hRT⟩ := rest_bounds hA hg hidle
  have hfits' : ∀ a ∈ s.activeAdapters, (g - s.idle env) * env.adapterAssets s.world a < wordSize :=
    List.forall_mem_map.mp hfits
  obtain ⟨w₁, r, l, hloop, hpulled⟩ := pullLoop_pulled hlive hRT
    (fun a (ha : a ∈ active s.adapters) => ha) hnodup hfits' (l := none) (pulls_le_rest hA hg hidle)
  rcases List.eq_nil_or_concat' s.activeAdapters with hnil | ⟨as, a, hsplit⟩
  · unfold State.adapterBalances at hT₀
    rw [hnil] at hT₀
    exact absurd hT₀ (Nat.lt_irrefl 0)
  · have hsplit' : active s.adapters = as ++ [a] := hsplit
    have ha : a ∈ s.activeAdapters := by
      rw [hsplit]
      simp
    have hlast : 0 < r → l = some a := by
      intro hpos
      rw [hpulled.last_eq hpos, hsplit']
      simp
    obtain ⟨w₂, hdust, hidle₂⟩ := pullDust_spec (w := w₁) hlive ha hlast
    refine ⟨{ s with world := w₂ }, ?_, ?_⟩
    · rw [pullProportional_eq hA hg hidle, hloop, ok_bind, hdust]
      rfl
    · have hbalances : s.adapterBalances env =
          as.map (env.adapterAssets s.world) ++ [env.adapterAssets s.world a] := by
        unfold State.adapterBalances
        rw [hsplit]
        simp
      have hgave := hpulled.gave a ha
      have hrem := hpulled.rem_eq
      have hidle₁ := hpulled.idle_eq
      set T := (s.adapterBalances env).sum
      have hpulls : (pulls env s.world (g - s.idle env) T (active s.adapters)).sum =
          (Lib.shares (g - s.idle env) T (as.map (env.adapterAssets s.world))).sum +
            share (g - s.idle env) T (env.adapterAssets s.world a) := by
        unfold pulls Lib.shares
        rw [hsplit']
        simp
      have hcovered : Covered (g - s.idle env) (s.adapterBalances env) ↔ g - s.idle env ≤
          (Lib.shares (g - s.idle env) T (as.map (env.adapterAssets s.world))).sum +
            env.adapterAssets s.world a := by
        unfold Covered
        show _ ≤ (Lib.shares _ T _).sum + _ ↔ _
        rw [hbalances, List.dropLast_concat, List.getLastD_concat]
      have hs : s.idle env = s.world.usdc.balanceOf env.self := rfl
      rw [hcovered]
      show g ≤ w₂.usdc.balanceOf env.self ↔ _
      omega

omit hidle

/-- `_pullProportional` brings what a payment needs exactly when the withdrawal is payable. -/
theorem pullProportional_pays :
    (∃ s', s.pullProportional env g = .ok s' ∧ g ≤ s'.idle env) ↔ s.Payable env g := by
  by_cases hidle : g ≤ s.idle env
  · refine iff_of_true ⟨s, ?_, hidle⟩ (.inl hidle)
    unfold State.pullProportional
    rw [if_pos hidle]
    split <;> rfl
  · have hidle' : s.idle env < g := by omega
    constructor
    · rintro ⟨s', h, hle⟩
      have hfits := pullProportional_fits hlive hnodup hA hg hidle' h
      obtain ⟨s'', h', hiff⟩ := pullProportional_covers hlive hnodup hA hg hidle' hfits
      rw [h] at h'
      cases h'
      exact .inr ⟨hfits, hiff.mp hle⟩
    · rintro (h | ⟨hfits, hcovered⟩)
      · exact absurd h hidle
      · obtain ⟨s', h, hiff⟩ := pullProportional_covers hlive hnodup hA hg hidle' hfits
        exact ⟨s', h, hiff.mpr hcovered⟩

end Payable

/-! ### Redemptions -/

/-- The gross value of `sh` shares, at `A` total assets. -/
def State.grossOf (s : State V) (A sh : ℕ) : ℕ := sh * (A + 1) / (s.shares.totalSupply + virtualShares)

theorem grossOf_le {A sh : ℕ} {owner : Address} (hsh : sh ≤ s.shares.balanceOf owner) :
    s.grossOf A sh ≤ A := by
  have hsupply : sh ≤ s.shares.totalSupply := hsh.trans (Token.balanceOf_le_supply _ _)
  have hpos := virtualShares_pos
  have hlt : sh * (A + 1) < (s.shares.totalSupply + virtualShares) * (A + 1) := by
    refine Nat.mul_lt_mul_of_pos_right ?_ (Nat.succ_pos A)
    omega
  exact Nat.le_of_lt_succ (Nat.div_lt_of_lt_mul hlt)

section Redeem

variable {A sh : ℕ} {owner receiver : Address} (hA : s.totalAssets env = .ok A)

include hA

theorem convertToAssets_eq_ok {gross : ℕ} (hsh : sh ≤ s.shares.balanceOf owner) :
    s.convertToAssets env sh = .ok gross ↔
      A + 1 < wordSize ∧ s.shares.totalSupply + virtualShares < wordSize ∧
        gross = s.grossOf A sh := by
  have hle : s.grossOf A sh ≤ A := grossOf_le hsh
  have hpos := virtualShares_pos
  unfold State.convertToAssets
  rw [hA, ok_bind]
  simp only [bind_eq_ok, addU_eq_ok, mulDiv_eq_ok]
  unfold State.grossOf at hle ⊢
  generalize virtualShares = K at hle hpos ⊢
  constructor
  · rintro ⟨_, ⟨hA₁, rfl⟩, _, ⟨hS, rfl⟩, -, -, rfl⟩
    exact ⟨hA₁, hS, rfl⟩
  · rintro ⟨hA₁, hS, rfl⟩
    exact ⟨_, ⟨hA₁, rfl⟩, _, ⟨hS, rfl⟩, by omega, by omega, rfl⟩

omit hA in
/-- The exit fee never exceeds what it is taken from. -/
theorem grossToNet_eq_ok {gross net : ℕ} (hgross : gross < wordSize) :
    s.grossToNet gross = .ok net ↔ net = gross - gross * s.exitFeeBps.1 / maxBps := by
  have hfee : gross * s.exitFeeBps.1 / maxBps ≤ gross := by
    refine Nat.div_le_of_le_mul ?_
    rw [mul_comm]
    exact Nat.mul_le_mul_right gross (s.exitFeeBps.2.trans (by decide))
  unfold State.grossToNet
  simp only [bind_eq_ok, mulDiv_eq_ok, subU_eq_ok]
  constructor
  · rintro ⟨_, ⟨-, -, rfl⟩, -, rfl⟩
    rfl
  · rintro rfl
    exact ⟨_, ⟨by decide, by omega, rfl⟩, hfee, rfl⟩

/-- A redemption by the owner goes through when its gross value is priced and pulled. -/
theorem redeem_of_pulled {s₁ : State V} (hself : env.self ≠ 0) (howner : owner ≠ 0)
    (hreceiver : receiver ≠ 0) (hpaused : s.withdrawalsPaused = false)
    (hsh : sh ≤ s.shares.balanceOf owner) (hA₁ : A + 1 < wordSize)
    (hS : s.shares.totalSupply + virtualShares < wordSize)
    (hpull : s.pullProportional env (s.grossOf A sh) = .ok s₁)
    (hidle : s.grossOf A sh ≤ s₁.idle env) :
    ∃ r, s.redeem env owner sh receiver owner = .ok r := by
  set gross := s.grossOf A sh
  have hle : gross ≤ A := grossOf_le hsh
  have hgross : s.convertToAssets env sh = .ok gross :=
    (convertToAssets_eq_ok hA hsh).mpr ⟨hA₁, hS, rfl⟩
  obtain ⟨fee, hnet⟩ : ∃ fee, s.grossToNet gross = .ok (gross - fee) :=
    ⟨_, (grossToNet_eq_ok (by omega)).mpr rfl⟩
  have hidle' : gross ≤ s₁.world.usdc.balanceOf env.self := hidle
  have hfee : gross - (gross - fee) ≤ s₁.world.usdc.balanceOf env.self := by omega
  -- the fee is paid, and the net amount is still there
  obtain ⟨usdc₁, hpaid, hrest⟩ : ∃ usdc₁, s₁.payFee env s₁.world.usdc (gross - (gross - fee)) =
      .ok usdc₁ ∧ gross - fee ≤ usdc₁.balanceOf env.self := by
    unfold State.payFee
    split
    · refine ⟨s₁.world.usdc.move env.self s₁.feeRecipient.1 _ hfee, ?_, ?_⟩
      · exact Token.transfer_eq_ok.mpr ⟨hself, s₁.feeRecipient.2, hfee, rfl⟩
      · show _ ≤ Token.moved s₁.world.usdc.balanceOf env.self _ _ env.self
        by_cases hdst : s₁.feeRecipient.1 = env.self
        · rw [hdst, Token.moved_self hfee]
          omega
        · rw [Token.moved_src (Ne.symm hdst)]
          omega
    · exact ⟨_, rfl, by omega⟩
  have hburn : (s.shares.burn owner sh : Call VaultError _) = .ok (s.shares.destroy owner sh hsh) :=
    Token.burn_eq_ok.mpr ⟨howner, hsh, rfl⟩
  have hpay : (usdc₁.transfer env.self receiver (gross - fee) : Call VaultError _) =
      .ok (usdc₁.move env.self receiver (gross - fee) hrest) :=
    Token.transfer_eq_ok.mpr ⟨hself, hreceiver, hrest, rfl⟩
  have hspend : s.spendShares owner owner sh = .ok s.shares := if_neg (by simp)
  have hsub : (subU gross (gross - fee) : Call VaultError ℕ) = .ok (gross - (gross - fee)) :=
    subU_eq_ok.mpr ⟨by omega, rfl⟩
  refine succeeds_iff.mp ?_
  unfold State.redeem State.previewRedeem State.withdrawInternal State.maxRedeem
  rw [revertIf_neg (by omega), ok_bind, hgross, ok_bind, hnet, ok_bind,
    revertIf_neg (by simp [hpaused]), ok_bind, hspend, ok_bind, ok_bind, hsub, ok_bind, hpull, ok_bind,
    hburn, ok_bind, hpaid, ok_bind, hpay, ok_bind]
  rfl

/-- A redemption by the owner that goes through was priced and pulled, when the fee goes elsewhere. -/
theorem pulled_of_redeem {r : State V × ℕ × ℕ} (hfee : s.feeRecipient.1 ≠ env.self)
    (h : s.redeem env owner sh receiver owner = .ok r) :
    A + 1 < wordSize ∧ s.shares.totalSupply + virtualShares < wordSize ∧
      ∃ s₁, s.pullProportional env (s.grossOf A sh) = .ok s₁ ∧ s.grossOf A sh ≤ s₁.idle env := by
  unfold State.redeem State.withdrawInternal State.maxRedeem at h
  simp only [bind_eq_ok, revertIf_eq_ok, exists_const, Nat.not_lt, subU_eq_ok, pure_eq_ok] at h
  obtain ⟨hsh, net, -, s₂, ⟨-, token, -, gross, hgross, _, ⟨hnet, rfl⟩, s₁, hpull, token', -, usdc₁,
    hpaid, usdc₂, hpay, rfl⟩, rfl⟩ := h
  obtain ⟨hA₁, hS, rfl⟩ := (convertToAssets_eq_ok hA hsh).mp hgross
  refine ⟨hA₁, hS, s₁, hpull, ?_⟩
  have hrecipient : s₁.feeRecipient = s.feeRecipient := by
    rw [pullProportional_frame hpull]
  obtain ⟨-, -, hrest, -⟩ := Token.transfer_eq_ok.mp hpay
  show _ ≤ s₁.world.usdc.balanceOf env.self
  unfold State.payFee at hpaid
  split at hpaid
  · obtain ⟨-, -, hle, rfl⟩ := Token.transfer_eq_ok.mp hpaid
    have hrest' : net ≤ Token.moved s₁.world.usdc.balanceOf env.self s₁.feeRecipient.1 _ env.self := hrest
    rw [hrecipient, Token.moved_src (Ne.symm hfee)] at hrest'
    omega
  · cases hpaid
    omega

end Redeem

/-- A redemption of `sh` shares is priced within a word, and its gross value is payable. -/
def State.Redeemable (env : Env V) (s : State V) (A sh : ℕ) : Prop :=
  A + 1 < wordSize ∧ s.shares.totalSupply + virtualShares < wordSize ∧
    s.Payable env (s.grossOf A sh)

/-- **When withdrawals are payable.**  In every state of the vault whose active adapters are distinct,
exact and live, with total assets `A`: for every `g` up to `A`, `_pullProportional(g)` does not revert
and leaves `g` idle exactly when `g` is payable; and while withdrawals are unpaused, a redemption by the
owner of shares it holds goes through if it is redeemable, and only if, when the fee does not go to the
vault itself. -/
theorem payable_iff {A : ℕ} (hself : env.self ≠ 0) (hlive : Live env s.activeAdapters)
    (hnodup : s.activeAdapters.Nodup) (hA : s.totalAssets env = .ok A) :
    (∀ g ≤ A, (∃ s', s.pullProportional env g = .ok s' ∧ g ≤ s'.idle env) ↔ s.Payable env g) ∧
    (∀ owner receiver sh, owner ≠ 0 → receiver ≠ 0 → s.withdrawalsPaused = false →
      sh ≤ s.shares.balanceOf owner →
      (s.Redeemable env A sh → ∃ r, s.redeem env owner sh receiver owner = .ok r) ∧
      (s.feeRecipient.1 ≠ env.self → (∃ r, s.redeem env owner sh receiver owner = .ok r) →
        s.Redeemable env A sh)) := by
  refine ⟨?_, ?_⟩
  · intro g hg
    exact pullProportional_pays hlive hnodup hA hg
  · intro owner receiver sh howner hreceiver hpaused hsh
    have hpays := pullProportional_pays hlive hnodup hA (grossOf_le (A := A) hsh)
    refine ⟨?_, ?_⟩
    · rintro ⟨hA₁, hS, hpayable⟩
      obtain ⟨s₁, hpull, hidle⟩ := hpays.mpr hpayable
      exact redeem_of_pulled hA hself howner hreceiver hpaused hsh hA₁ hS hpull hidle
    · rintro hfee ⟨r, h⟩
      obtain ⟨hA₁, hS, hpulled⟩ := pulled_of_redeem hA hfee h
      exact ⟨hA₁, hS, hpays.mp hpulled⟩

theorem live_inUse : Live (passthrough 1 2) inUse.activeAdapters :=
  live_passthrough (by decide +kernel) (by decide) (by decide +kernel)

theorem payable_iff_sample :
    (∃ s', inUse.pullProportional (passthrough 1 2) 2 = .ok s' ∧ 2 ≤ s'.idle (passthrough 1 2)) ∧
      ∃ r, inUse.redeem (passthrough 1 2) 5 (2 * 10 ^ 18) 6 5 = .ok r := by
  have h := payable_iff (by decide) live_inUse (by decide +kernel)
    (show inUse.totalAssets (passthrough 1 2) = .ok 3 by decide +kernel)
  refine ⟨?_, ?_⟩
  · exact (h.1 2 (by decide)).mpr (by decide +kernel)
  · refine (h.2 5 6 (2 * 10 ^ 18) (by decide) (by decide) (by decide +kernel) (by decide +kernel)).1 ?_
    exact ⟨by decide +kernel, by decide +kernel, by decide +kernel⟩

/-! ### An empty adapter comes last -/

/-- A third adapter is added to the vault in use. -/
def extended : State Unit :=
  run (exec (passthrough 1 2)) deployed
    (opened ++ [callBy 20 (.setAdapterAllowed 12 true), callBy 20 (.addAdapter 12 10000)])

/-- The vault has three units, two with its first adapter and one with its second.  A withdrawal of two
takes one from the first and asks the third, which is empty, for the other; the owner's redemption of
two thirds of all shares reverts. -/
theorem payout_fails :
    Live (passthrough 1 2) extended.activeAdapters ∧ extended.activeAdapters.Nodup ∧
      extended.totalAssets (passthrough 1 2) = .ok 3 ∧
      extended.adapterBalances (passthrough 1 2) = [2, 1, 0] ∧
      ¬ (∃ s', extended.pullProportional (passthrough 1 2) 2 = .ok s' ∧
        2 ≤ s'.idle (passthrough 1 2)) ∧
      extended.withdrawalsPaused = false ∧ extended.shares.balanceOf 5 = 3 * 10 ^ 18 ∧
      extended.redeem (passthrough 1 2) 5 (2 * 10 ^ 18) 5 5 =
        .error (.token .insufficientBalance) := by
  have hlive : Live (passthrough 1 2) extended.activeAdapters :=
    live_passthrough (by decide +kernel) (by decide) (by decide +kernel)
  have hnodup : extended.activeAdapters.Nodup := by decide +kernel
  have hA : extended.totalAssets (passthrough 1 2) = .ok 3 := by decide +kernel
  refine ⟨hlive, hnodup, hA, by decide +kernel, ?_, by decide +kernel, by decide +kernel, ?_⟩
  · rw [pullProportional_pays hlive hnodup hA (by decide)]
    decide +kernel
  · exact reason_eq_some.mp (by decide +kernel)

end RobotMoney.Vault
