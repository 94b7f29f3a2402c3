import RobotMoney.Dapp.Abi
import RobotMoney.Lib.Revert

/-!
# What the preview shows and what is signed

The preview of an `authorizeAgent` shows the agent and every field of the policy but its two lists
(`AgentPolicy.shown`), and these two are in the calldata: two policies that differ in a list only are shown
alike and signed apart.  `preview_faithful_iff` says when two previews tell the two transactions apart as they
should.
-/

namespace RobotMoney.Dapp

open RobotMoney.Lib

/-- The policy without its two lists: what a preview shows of it. -/
def AgentPolicy.shown (p : AgentPolicy String) : AgentPolicy String :=
  { p with allowedDestinations := [], allowedSourceVaults := [] }

/-- The two lists of a policy, read. -/
def AgentPolicy.lists (p : AgentPolicy String) : List (Option ℕ) × List (Option ℕ) :=
  (p.allowedDestinations.map spells, p.allowedSourceVaults.map spells)

/-- An authorization the dapp has a preview of: the code of the gateway was recognized, every address is
one, every number fits its type and the expiry is a date. -/
structure Signable (v : Viem) (ctx : PreviewContext) (agent : String) (p : AgentPolicy String) : Prop where
  verified : ctx.gatewayCodeHashVerified = true
  agent : (spells agent).isSome
  shareReceiver : (spells p.shareReceiver).isSome
  assetRecipient : v.isAddress p.assetRecipient = true
  allowedDestinations : AddressArray v.isAddress p.allowedDestinations
  allowedSourceVaults : AddressArray v.isAddress p.allowedSourceVaults
  validUntil : 0 ≤ p.validUntil ∧ p.validUntil ≤ maxTime
  maxPerPayment : 0 ≤ p.maxPerPayment ∧ p.maxPerPayment < 2 ^ 256
  maxPerWindow : 0 ≤ p.maxPerWindow ∧ p.maxPerWindow < 2 ^ 256
  maxWithdrawPerPayment : 0 ≤ p.maxWithdrawPerPayment ∧ p.maxWithdrawPerPayment < 2 ^ 256
  maxWithdrawPerWindow : 0 ≤ p.maxWithdrawPerWindow ∧ p.maxWithdrawPerWindow < 2 ^ 256

/-- The previews of two authorizations tell them apart: where both show the same arguments and the same
effect, both have the same calldata. -/
def Faithful (v : Viem) (ctx ctx' : PreviewContext) (agent agent' : String) (p q : AgentPolicy String) : Prop :=
  ∀ s t, buildPreview v (.authorizeAgent agent p) ctx = .success s →
    buildPreview v (.authorizeAgent agent' q) ctx' = .success t →
    s.args = t.args → s.effect = t.effect → s.calldata = t.calldata

section Previews

variable {v : Viem} {ctx ctx' : PreviewContext} {agent agent' : String} {p q : AgentPolicy String}

/-! ### What is shown -/

/-- The arguments shown tell every field of the policy but the two lists. -/
theorem authorizeArgs_inj {expiry expiry' : String}
    (h : authorizeArgs agent p expiry = authorizeArgs agent' q expiry') : agent = agent' ∧ p.shown = q.shown := by
  simp only [authorizeArgs, List.cons.injEq, PreviewArg.mk.injEq, true_and] at h
  obtain ⟨⟨hagent, -⟩, ⟨hactive, -⟩, ⟨huntil, -⟩, ⟨hpay, -⟩, ⟨hwindow, -⟩, ⟨hreceiver, -⟩, ⟨hasset, -⟩,
    ⟨hwpay, -⟩, ⟨hwwindow, -⟩, -⟩ := h
  refine ⟨hagent, ?_⟩
  simp only [AgentPolicy.shown, AgentPolicy.mk.injEq, true_and, and_true]
  exact ⟨boolToString_injective hactive, bigintToString_injective huntil, bigintToString_injective hpay,
    bigintToString_injective hwindow, hreceiver, hasset, bigintToString_injective hwpay,
    bigintToString_injective hwwindow⟩

/-! The two lists are not among the arguments, nor in the effect. -/

@[simp] theorem shown_shareReceiver (p : AgentPolicy String) : p.shown.shareReceiver = p.shareReceiver := rfl

@[simp] theorem shown_validUntil (p : AgentPolicy String) : p.shown.validUntil = p.validUntil := rfl

theorem authorizeArgs_shown (expiry : String) :
    authorizeArgs agent p.shown expiry = authorizeArgs agent p expiry := rfl

theorem authorizeEffect_shown (expiry : String) :
    authorizeEffect agent p.shown expiry = authorizeEffect agent p expiry := rfl

/-- What is encoded is what is shown and the two lists. -/
theorem read_eq_iff (h : p.shown = q.shown) : p.read = q.read ↔ p.lists = q.lists := by
  simp only [AgentPolicy.shown, AgentPolicy.mk.injEq, true_and, and_true] at h
  obtain ⟨hactive, huntil, hpay, hwindow, hreceiver, hasset, hwpay, hwwindow⟩ := h
  simp [AgentPolicy.read, AgentPolicy.lists, hactive, huntil, hpay, hwindow, hreceiver, hasset, hwpay, hwwindow]

/-! ### When there is a preview -/

/-- A preview of an authorization: its calldata is the encoding of the call, with the agent and the share
receiver in their checksum form. -/
theorem buildPreview_success {s : PreviewSuccess}
    (h : buildPreview v (.authorizeAgent agent p) ctx = .success s) :
    ctx.gatewayCodeHashVerified = true ∧ ∃ a r expiry, v.getAddress agent = .ok a ∧
      v.getAddress p.shareReceiver = .ok r ∧ toISOString p.validUntil = .ok expiry ∧
      v.encodeFunctionData (.authorizeAgent a { p with shareReceiver := r }) = .ok s.calldata ∧
      s.args = authorizeArgs agent p expiry ∧ s.effect = authorizeEffect agent p expiry := by
  unfold buildPreview at h
  split at h
  · cases h
  · rename_i hverified
    refine ⟨by simpa using hverified, ?_⟩
    split at h
    · cases h
    · rename_i e he
      obtain ⟨a, ha, r, hr, d, hd, expiry, hexpiry, hpure⟩ :
          ∃ a, v.getAddress agent = .ok a ∧ ∃ r, v.getAddress p.shareReceiver = .ok r ∧
            ∃ d, v.encodeFunctionData (.authorizeAgent a { p with shareReceiver := r }) = .ok d ∧
            ∃ expiry, toISOString p.validUntil = .ok expiry ∧
              (⟨.authorizeAgent, d, authorizeArgs agent p expiry, authorizeEffect agent p expiry⟩ : Encoded) = e := by
        simpa only [encodeAction, bind_eq_ok, pure_eq_ok] using he
      split at h
      · cases h
      · cases h
      · cases h
        subst hpure
        exact ⟨a, r, expiry, ha, hr, hexpiry, hd, rfl, rfl⟩

/-- Where the call is encoded and the expiry is a date, there is a preview. -/
theorem buildPreview_of_encoded (hv : v.Documented) (hverified : ctx.gatewayCodeHashVerified = true)
    {a r d expiry : String} (ha : v.getAddress agent = .ok a) (hr : v.getAddress p.shareReceiver = .ok r)
    (hd : v.encodeFunctionData (.authorizeAgent a { p with shareReceiver := r }) = .ok d)
    (hexpiry : toISOString p.validUntil = .ok expiry) :
    ∃ s, buildPreview v (.authorizeAgent agent p) ctx = .success s := by
  have hencoded : encodeAction v (.authorizeAgent agent p) = .ok ⟨.authorizeAgent, d,
      authorizeArgs agent p expiry, authorizeEffect agent p expiry⟩ := by
    simp only [encodeAction, bind_eq_ok, pure_eq_ok]
    exact ⟨a, ha, r, hr, d, hd, expiry, hexpiry, rfl⟩
  obtain ⟨selector, hselector⟩ := hv.selector_ok .authorizeAgent
  have hback : readBack v ⟨.authorizeAgent, d, authorizeArgs agent p expiry, authorizeEffect agent p expiry⟩ =
      .ok (some selector) := by
    simp only [readBack, bind_eq_ok]
    refine ⟨.authorizeAgent, hv.decode_encode _ _ hd, ?_⟩
    simp [hselector, pure, Except.pure, bind, Except.bind]
  refine ⟨⟨ctx.gateway, ctx.gatewayCodeHashVerified, .authorizeAgent, selector, authorizeArgs agent p expiry,
    authorizeEffect agent p expiry, classifyRisk (.authorizeAgent agent p) ctx, d⟩, ?_⟩
  unfold buildPreview
  rw [if_neg (by simp [hverified]), hencoded]
  simp only [hback]

/-- There is a preview exactly of a signable authorization. -/
theorem buildPreview_success_iff (hv : v.Documented) :
    (∃ s, buildPreview v (.authorizeAgent agent p) ctx = .success s) ↔ Signable v ctx agent p := by
  constructor
  · rintro ⟨s, hs⟩
    obtain ⟨hverified, a, r, expiry, ha, hr, hexpiry, hd, -, -⟩ := buildPreview_success hs
    have hfits := ((hv.encode_ok _ _).mp ⟨_, hd⟩).2
    have hdate := (toISOString_ok_iff _).mp ⟨_, hexpiry⟩
    exact ⟨hverified, (hv.getAddress_ok _).mp ⟨_, ha⟩, (hv.getAddress_ok _).mp ⟨_, hr⟩, hfits.assetRecipient,
      hfits.allowedDestinations, hfits.allowedSourceVaults, ⟨hfits.validUntil.1, hdate.2⟩, hfits.maxPerPayment,
      hfits.maxPerWindow, hfits.maxWithdrawPerPayment, hfits.maxWithdrawPerWindow⟩
  · intro hs
    obtain ⟨a, ha⟩ := (hv.getAddress_ok agent).mpr hs.agent
    obtain ⟨r, hr⟩ := (hv.getAddress_ok p.shareReceiver).mpr hs.shareReceiver
    have hmax : maxTime = 8640000000000 := rfl
    have huntil := hs.validUntil
    obtain ⟨d, hd⟩ := (hv.encode_ok a { p with shareReceiver := r }).mpr
      ⟨(hv.getAddress_same _ _ ha).2, ⟨⟨huntil.1, by show p.validUntil < _; omega⟩, hs.maxPerPayment,
        hs.maxPerWindow, (hv.getAddress_same _ _ hr).2, hs.allowedDestinations, hs.assetRecipient,
        hs.maxWithdrawPerPayment, hs.maxWithdrawPerWindow, hs.allowedSourceVaults⟩⟩
    obtain ⟨expiry, hexpiry⟩ := (toISOString_ok_iff p.validUntil).mpr ⟨by omega, huntil.2⟩
    exact buildPreview_of_encoded hv hs.verified ha hr hd hexpiry

/-- The calldata of two previews of the same agent that show the same policy. -/
theorem calldata_eq_iff (hv : v.Documented) {s t : PreviewSuccess}
    (hs : buildPreview v (.authorizeAgent agent p) ctx = .success s)
    (ht : buildPreview v (.authorizeAgent agent q) ctx' = .success t) (hshown : p.shown = q.shown) :
    s.calldata = t.calldata ↔ p.lists = q.lists := by
  obtain ⟨-, a, r, -, ha, hr, -, hd, -, -⟩ := buildPreview_success hs
  obtain ⟨-, b, u, -, hb, hu, -, he, -, -⟩ := buildPreview_success ht
  have hreceiver : p.shareReceiver = q.shareReceiver := by
    simpa using congrArg AgentPolicy.shareReceiver hshown
  have hab : a = b := by
    rw [ha] at hb
    simpa using hb
  have hru : r = u := by
    rw [hreceiver, hu] at hr
    simpa using hr.symm
  subst hab hru
  have hshown' : ({ p with shareReceiver := r } : AgentPolicy String).shown =
      ({ q with shareReceiver := r } : AgentPolicy String).shown :=
    congrArg (fun x : AgentPolicy String => { x with shareReceiver := r }) hshown
  have hlists := read_eq_iff hshown'
  rw [hv.encode_eq _ _ _ _ _ _ hd he, hlists]
  simp [AgentPolicy.lists]

/-- Two authorizations that are shown alike have the same preview up to the calldata. -/
theorem shown_alike {s t : PreviewSuccess} (hs : buildPreview v (.authorizeAgent agent p) ctx = .success s)
    (ht : buildPreview v (.authorizeAgent agent q) ctx' = .success t) (hshown : p.shown = q.shown) :
    s.args = t.args ∧ s.effect = t.effect := by
  obtain ⟨-, -, -, expiry, -, -, hexpiry, -, hargs, heffect⟩ := buildPreview_success hs
  obtain ⟨-, -, -, expiry', -, -, hexpiry', -, hargs', heffect'⟩ := buildPreview_success ht
  have huntil : p.validUntil = q.validUntil := by
    simpa using congrArg AgentPolicy.validUntil hshown
  have hsame : expiry = expiry' := by
    rw [huntil, hexpiry'] at hexpiry
    simpa using hexpiry.symm
  subst hsame
  constructor
  · rw [hargs, hargs', ← authorizeArgs_shown, hshown, authorizeArgs_shown]
  · rw [heffect, heffect', ← authorizeEffect_shown, hshown, authorizeEffect_shown]

end Previews

/-! ### The preview against the transaction -/

section Claim

variable {v : Viem} {ctx ctx' : PreviewContext} {agent agent' : String} {p q : AgentPolicy String}

/-- Previews of the same agent that show the same policy with other lists hide the difference. -/
theorem not_faithful_of_lists (hv : v.Documented) (hp : Signable v ctx agent p) (hq : Signable v ctx' agent q)
    (hshown : p.shown = q.shown) (hlists : p.lists ≠ q.lists) : ¬ Faithful v ctx ctx' agent agent p q := by
  intro hfaithful
  obtain ⟨s, hs⟩ := (buildPreview_success_iff hv).mpr hp
  obtain ⟨t, ht⟩ := (buildPreview_success_iff hv).mpr hq
  obtain ⟨hargs, heffect⟩ := shown_alike hs ht hshown
  exact hlists ((calldata_eq_iff hv hs ht hshown).mp (hfaithful s t hs ht hargs heffect))

/-- Two previews tell two authorizations apart except where both exist, the agent and the nine shown fields of
the policy are the same, and the lists of destinations and of source vaults are not. -/
theorem preview_faithful_iff (hv : v.Documented) :
    Faithful v ctx ctx' agent agent' p q ↔
      (Signable v ctx agent p → Signable v ctx' agent' q → agent = agent' → p.shown = q.shown →
        p.lists = q.lists) := by
  constructor
  · intro hfaithful hp hq hagent hshown
    subst hagent
    by_contra hlists
    exact not_faithful_of_lists hv hp hq hshown hlists hfaithful
  · intro hlists s t hs ht hargs heffect
    have hp := (buildPreview_success_iff hv).mp ⟨s, hs⟩
    have hq := (buildPreview_success_iff hv).mp ⟨t, ht⟩
    obtain ⟨-, -, -, expiry, -, -, -, -, hsargs, -⟩ := buildPreview_success hs
    obtain ⟨-, -, -, expiry', -, -, -, -, htargs, -⟩ := buildPreview_success ht
    rw [hsargs, htargs] at hargs
    obtain ⟨rfl, hshown⟩ := authorizeArgs_inj hargs
    exact (calldata_eq_iff hv hs ht hshown).mpr (hlists hp hq rfl hshown)

end Claim

/-! ### Two policies that are shown alike -/

def forkContext : PreviewContext := ⟨"0x5555555555555555555555555555555555555555", true, .fork⟩

def someAgent : String := "0x1111111111111111111111111111111111111111"

/-- A deposit policy that lets the agent pay into any destination. -/
def openPolicy : AgentPolicy String where
  active := true
  validUntil := 1700000000
  maxPerPayment := 1000000
  maxPerWindow := 10000000
  shareReceiver := "0x2222222222222222222222222222222222222222"
  allowedDestinations := []
  assetRecipient := "0x0000000000000000000000000000000000000000"
  maxWithdrawPerPayment := 0
  maxWithdrawPerWindow := 0
  allowedSourceVaults := []

/-- The same, with one destination. -/
def closedPolicy : AgentPolicy String :=
  { openPolicy with allowedDestinations := ["0x4444444444444444444444444444444444444444"] }

theorem openPolicy_signable : Signable abiViem forkContext someAgent openPolicy := by
  constructor <;> decide +kernel

theorem closedPolicy_signable : Signable abiViem forkContext someAgent closedPolicy := by
  constructor <;> decide +kernel

theorem preview_faithful_iff_open :
    ¬ Faithful abiViem forkContext forkContext someAgent someAgent openPolicy closedPolicy ∧
      Faithful abiViem forkContext forkContext someAgent someAgent openPolicy
        { closedPolicy with maxPerPayment := 2000000 } := by
  constructor
  · intro h
    have hlists := (preview_faithful_iff abiViem_documented).mp h openPolicy_signable closedPolicy_signable rfl rfl
    exact absurd hlists (by decide +kernel)
  · refine (preview_faithful_iff abiViem_documented).mpr fun _ _ _ hshown => ?_
    exact absurd hshown (by decide)

/-- An open policy and one with a single destination have the same preview, and other calldata. -/
theorem preview_hides_destinations :
    ∃ s t, buildPreview abiViem (.authorizeAgent someAgent openPolicy) forkContext = .success s ∧
      buildPreview abiViem (.authorizeAgent someAgent closedPolicy) forkContext = .success t ∧
      s.args = t.args ∧ s.effect = t.effect ∧ s.calldata ≠ t.calldata := by
  obtain ⟨s, hs⟩ := (buildPreview_success_iff abiViem_documented).mpr openPolicy_signable
  obtain ⟨t, ht⟩ := (buildPreview_success_iff abiViem_documented).mpr closedPolicy_signable
  obtain ⟨hargs, heffect⟩ := shown_alike hs ht rfl
  have hcalldata := calldata_eq_iff abiViem_documented hs ht rfl
  exact ⟨s, t, hs, ht, hargs, heffect, fun h => absurd (hcalldata.mp h) (by decide +kernel)⟩

end RobotMoney.Dapp
