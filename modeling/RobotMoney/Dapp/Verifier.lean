import RobotMoney.Dapp.Preview

/-!
# The check of the gateway's bytecode

`gatewayVerifier.ts` compares the hash of the gateway's code with the pinned one; the hook
`useGatewayVerifier` asks the wallet for the code, up to four times, and starts over whenever the address,
the pinned hash, the connection or the chain changes.  Rendering, effects, timers and answers of the wallet
come in any order, and answers to questions nobody waits for any more come too.  `keccak256` is a parameter,
which can throw; so are the chain that the build asks for and everything the wallet does.
-/

namespace RobotMoney.Dapp

/-! ### The verdict -/

/-- `VerificationState` -/
inductive VerificationState where
  | idle
  | pending
  | verified (computedHash : String)
  | refused (reason : String)
  deriving DecidableEq

def VerificationState.isVerified : VerificationState → Bool
  | .verified _ => true
  | _ => false

/-- What an answer to `eth_getCode` is read as. -/
inductive Code where
  | undefined
  | null
  | hex (text : String)
  deriving DecidableEq

/-- `ZERO_ADDRESS` -/
def zeroAddressText : String := "0x0000000000000000000000000000000000000000"

/-- The characters that `trim` takes off. -/
def isJsSpace (c : Char) : Bool :=
  c.toNat ∈ [0x9, 0xA, 0xB, 0xC, 0xD, 0x20, 0xA0, 0x1680, 0x2028, 0x2029, 0x202F, 0x205F, 0x3000, 0xFEFF] ||
    (0x2000 ≤ c.toNat && c.toNat ≤ 0x200A)

/-- A pinned hash that counts as missing: no text, the empty one, or only blanks. -/
def hashMissing (expectedHash : Option String) : Bool :=
  expectedHash.all fun s => s.toList.all isJsSpace

/-- `toLowerCase`, read as its characters.  One side of the comparison is a hash in lower case, so of the other
side only the letters of ASCII matter. -/
def lowerCase (s : String) : List Char := s.toList.map Char.toLower

def addressMissing (gatewayAddress : String) : Bool :=
  gatewayAddress = "" || gatewayAddress = zeroAddressText

/-- `computeVerificationState`; the error is what `keccak256` throws. -/
def computeVerificationState (keccak256 : String → Except String String) (gatewayAddress : String)
    (expectedHash : Option String) (code : Code) : Except String VerificationState :=
  if hashMissing expectedHash then
    .ok (.refused ("VITE_GATEWAY_EXPECTED_CODE_HASH is not set. " ++
      "Configure the expected runtime hash to enable admin writes."))
  else if addressMissing gatewayAddress then
    .ok (.refused ("Gateway address is zero or missing. " ++
      "Set VITE_GATEWAY_ADDRESS to the deployed contract address."))
  else match code with
    | .undefined => .ok .pending
    | .null => .ok (.refused ("Gateway bytecode is empty. The address is not a deployed contract " ++
        "on the current network."))
    | .hex text =>
      if text = "0x" || text = "" then
        .ok (.refused ("Gateway bytecode is empty. The address is not a deployed contract " ++
          "on the current network."))
      else do
        let computedHash ← keccak256 text
        if lowerCase computedHash ≠ lowerCase (expectedHash.getD "") then
          pure (.refused ("Gateway bytecode hash mismatch. " ++
            "Expected " ++ expectedHash.getD "" ++ " but got " ++ computedHash ++ ". " ++
            "Refusing to surface signing prompts."))
        else pure (.verified computedHash)

/-! ### The hook -/

/-- The build's target chain, and the hash function. -/
structure Build where
  targetChainId : Option ℕ
  keccak256 : String → Except String String

/-- The dependencies of the effect. -/
structure Deps where
  gatewayAddress : String
  expectedCodeHash : Option String
  isConnected : Bool
  chainId : ℕ
  refreshTick : ℕ

/-- Where a call of `attempt` is: in a delay, waiting for the wallet, or at its end. -/
inductive Phase where
  | sleeping
  | asking
  | over
  deriving DecidableEq

/-- A call of `attempt`, with its token and the dependencies it closes over. -/
structure Attempt where
  deps : Deps
  cancelled : Bool
  i : ℕ
  lastError : Option String
  phase : Phase

/-- `RETRY_DELAYS_MS` -/
def retryDelaysMs : List ℕ := [0, 3000, 8000, 20000]

/-- The component that uses the hook.  `ran` is what the effect saw when it ran last, `cleanup` the attempt
whose token its cleanup cancels; the token of the last attempt is the one of `cancelRef`. -/
structure Hook where
  deps : Deps
  ran : Option Deps
  state : VerificationState
  attempts : List Attempt
  cleanup : Option ℕ

def Hook.mount (deps : Deps) : Hook := ⟨deps, none, .idle, [], none⟩

/-- The head of the loop, or what comes after it: the attempt, and the state it sets. -/
def Attempt.round (a : Attempt) : Attempt × Option VerificationState :=
  if a.cancelled then ({ a with phase := .over }, none)
  else match retryDelaysMs[a.i]? with
    | some delay => ({ a with phase := if 0 < delay then .sleeping else .asking }, none)
    | none => ({ a with phase := .over }, some (.refused (
        "Wallet returned an error for eth_getCode(" ++ a.deps.gatewayAddress ++ ") after " ++
          toString retryDelaysMs.length ++ " retries: " ++ a.lastError.getD "unknown")))

/-- A delay ends. -/
def Attempt.wake (a : Attempt) : Attempt × Option VerificationState :=
  if a.cancelled then ({ a with phase := .over }, none) else ({ a with phase := .asking }, none)

/-- The `catch` block, and the loop's next round. -/
def Attempt.catch (a : Attempt) (message : String) : Attempt × Option VerificationState :=
  if a.cancelled then ({ a with lastError := some message, phase := .over }, none)
  else { a with lastError := some message, i := a.i + 1 }.round

/-- `resolvedCode` -/
def resolvedCode (code : Code) : Code :=
  if code = .undefined ∨ code = .null ∨ code = .hex "0x" then .null else code

/-- The wallet answers. -/
def Attempt.reply (keccak256 : String → Except String String) (a : Attempt) (answer : Except String Code) :
    Attempt × Option VerificationState :=
  match answer with
  | .error message => a.catch message
  | .ok code =>
    if a.cancelled then ({ a with phase := .over }, none)
    else match computeVerificationState keccak256 a.deps.gatewayAddress a.deps.expectedCodeHash
        (resolvedCode code) with
      | .error message => a.catch message
      | .ok state => ({ a with phase := .over }, some state)

/-- Attempt `k`, where it is in phase `phase`, goes on. -/
def Hook.goOn (s : Hook) (k : ℕ) (phase : Phase) (f : Attempt → Attempt × Option VerificationState) : Hook :=
  match s.attempts[k]? with
  | none => s
  | some a =>
    if a.phase = phase then
      { s with attempts := s.attempts.set k (f a).1, state := (f a).2.getD s.state }
    else s

/-- A token is cancelled. -/
def cancel (attempts : List Attempt) (k : ℕ) : List Attempt :=
  attempts.modify k fun a => { a with cancelled := true }

/-- The cleanup that the effect's last run returned. -/
def Hook.cleanUp (s : Hook) : Hook :=
  { s with attempts := s.cleanup.elim s.attempts (cancel s.attempts), cleanup := none }

/-- The body of the effect, from the question for the injected provider on. -/
def Hook.start (s : Hook) (provider : Bool) : Hook :=
  if provider = false then
    { s with state := .refused "No injected wallet provider (window.ethereum is undefined)." }
  else
    let attempts := cancel s.attempts (s.attempts.length - 1)
    let attempt := (Attempt.mk s.deps false 0 none .sleeping).round.1
    { s with attempts := attempts ++ [attempt], state := .pending, cleanup := some attempts.length }

/-- The body of the effect, where nothing is refused at once. -/
def Hook.checkChain (b : Build) (s : Hook) (provider : Bool) : Hook :=
  if s.deps.gatewayAddress = "" ∨ s.deps.gatewayAddress = zeroAddressText ∨
      s.deps.expectedCodeHash.getD "" = "" then s
  else if ∃ target ∈ b.targetChainId, s.deps.chainId ≠ target then
    { s with state := .refused ("Wallet is on chain " ++ toString s.deps.chainId ++ ", expected " ++
      toString (b.targetChainId.getD 0) ++ ".") }
  else s.start provider

/-- The body of the effect. -/
def Hook.body (b : Build) (s : Hook) (provider : Bool) : Hook :=
  if s.deps.isConnected = false then { s with state := .idle }
  else match computeVerificationState b.keccak256 s.deps.gatewayAddress s.deps.expectedCodeHash .undefined with
    | .ok (.refused reason) => { s with state := .refused reason }
    | .ok _ => s.checkChain b provider
    | .error _ => s.checkChain b provider

inductive Event where
  /-- The component renders, with these dependencies. -/
  | render (deps : Deps)
  /-- React runs the effect, with or without a provider in the window. -/
  | effect (provider : Bool)
  | wake (k : ℕ)
  | reply (k : ℕ) (answer : Except String Code)

def Hook.step (b : Build) (s : Hook) : Event → Hook
  | .render deps => { s with deps := deps }
  | .effect provider => { s.cleanUp with ran := some s.deps }.body b provider
  | .wake k => s.goOn k .sleeping Attempt.wake
  | .reply k answer => s.goOn k .asking fun a => a.reply b.keccak256 answer

/-- The component after a list of events. -/
def Hook.after (b : Build) (mount : Deps) (events : List Event) : Hook :=
  events.foldl (Hook.step b) (Hook.mount mount)

/-- The context of the previews in `AdminFlow`. -/
def Hook.context (s : Hook) (envClass : EnvClass) : PreviewContext :=
  ⟨s.deps.gatewayAddress, s.state.isVerified, envClass⟩

/-! ### What a verdict says -/

section Verdict

variable {keccak256 : String → Except String String} {gatewayAddress : String} {expectedHash : Option String}

theorem verified_iff {code : Code} {hash : String} :
    computeVerificationState keccak256 gatewayAddress expectedHash code = .ok (.verified hash) ↔
      hashMissing expectedHash = false ∧ addressMissing gatewayAddress = false ∧
        ∃ text, code = .hex text ∧ text ≠ "0x" ∧ text ≠ "" ∧ keccak256 text = .ok hash ∧
          lowerCase hash = lowerCase (expectedHash.getD "") := by
  unfold computeVerificationState
  cases hashMissing expectedHash with
  | true => simp
  | false =>
    cases addressMissing gatewayAddress with
    | true => simp
    | false =>
      cases code with
      | undefined => simp
      | null => simp
      | hex text =>
        by_cases hempty : text = "0x" ∨ text = ""
        · simp only [Bool.false_eq_true, if_false, Bool.or_eq_true, decide_eq_true_eq, if_pos hempty,
            Except.ok.injEq, reduceCtorEq, Code.hex.injEq, true_and, false_iff, not_exists]
          rintro t ⟨rfl, h0x, hnil, -⟩
          exact hempty.elim h0x hnil
        · simp only [Bool.false_eq_true, if_false, Bool.or_eq_true, decide_eq_true_eq, if_neg hempty,
            Code.hex.injEq, true_and, exists_eq_left']
          obtain ⟨h0x, hnil⟩ := not_or.mp hempty
          cases hk : keccak256 text with
          | error message => simp [bind, Except.bind]
          | ok computedHash =>
            simp only [bind, Except.bind, h0x, hnil, ne_eq, not_false_eq_true, true_and, Except.ok.injEq]
            split
            · rename_i hdiff
              simp only [pure, Except.pure, Except.ok.injEq, reduceCtorEq, false_iff, not_and]
              rintro rfl
              exact hdiff
            · rename_i hsame
              simp only [pure, Except.pure, Except.ok.injEq, VerificationState.verified.injEq]
              constructor
              · rintro rfl
                exact ⟨rfl, not_not.mp hsame⟩
              · exact fun h => h.1

/-- Before an answer is there the verdict is a refusal, or to wait. -/
theorem undefined_verdict :
    computeVerificationState keccak256 gatewayAddress expectedHash .undefined = .ok .pending ∧
        hashMissing expectedHash = false ∧ addressMissing gatewayAddress = false ∨
      ∃ reason, computeVerificationState keccak256 gatewayAddress expectedHash .undefined =
        .ok (.refused reason) := by
  unfold computeVerificationState
  cases hashMissing expectedHash with
  | true => exact .inr ⟨_, rfl⟩
  | false =>
    cases addressMissing gatewayAddress with
    | true => exact .inr ⟨_, rfl⟩
    | false => exact .inl ⟨rfl, rfl, rfl⟩

/-- An answer is judged: the verdict is not to wait. -/
theorem resolved_not_pending (code : Code) :
    computeVerificationState keccak256 gatewayAddress expectedHash (resolvedCode code) ≠ .ok .pending ∧
      computeVerificationState keccak256 gatewayAddress expectedHash (resolvedCode code) ≠ .ok .idle := by
  have hcode : resolvedCode code ≠ .undefined := by
    unfold resolvedCode
    split
    · exact nofun
    · rename_i h
      exact fun hundef => h (.inl hundef)
  unfold computeVerificationState
  cases hashMissing expectedHash with
  | true => simp
  | false =>
    cases addressMissing gatewayAddress with
    | true => simp
    | false =>
      cases hres : resolvedCode code with
      | undefined => exact absurd hres hcode
      | null => simp
      | hex text =>
        simp only [Bool.false_eq_true, if_false]
        split
        · simp
        · cases keccak256 text with
          | error message => simp [bind, Except.bind]
          | ok computedHash =>
            simp only [bind, Except.bind, pure, Except.pure]
            split <;> simp

end Verdict

/-! ### What an attempt does -/

/-- What one move of an attempt leaves: a cancelled one sets nothing, another one goes on silently or ends
with a verdict. -/
structure Moves (a : Attempt) (r : Attempt × Option VerificationState) : Prop where
  deps : r.1.deps = a.deps
  cancelled : r.1.cancelled = a.cancelled
  silent : a.cancelled = true → r.2 = none
  speaks : a.cancelled = false → (r.2 = none ∧ r.1.phase ≠ .over) ∨
    (r.1.phase = .over ∧ ∃ state, r.2 = some state ∧ state ≠ .pending)

variable {b : Build} {a : Attempt} {s : Hook}

theorem round_moves (a : Attempt) : Moves a a.round := by
  unfold Attempt.round
  split
  · rename_i h
    exact ⟨rfl, rfl, fun _ => rfl, fun hfalse => absurd (h.symm.trans hfalse) (by decide)⟩
  · rename_i h
    split
    · refine ⟨rfl, rfl, fun htrue => absurd htrue h, fun _ => .inl ⟨rfl, ?_⟩⟩
      dsimp only
      split <;> decide
    · exact ⟨rfl, rfl, fun htrue => absurd htrue h, fun _ => .inr ⟨rfl, _, rfl, nofun⟩⟩

theorem wake_moves (a : Attempt) : Moves a a.wake := by
  unfold Attempt.wake
  split
  · rename_i h
    exact ⟨rfl, rfl, fun _ => rfl, fun hfalse => absurd (h.symm.trans hfalse) (by decide)⟩
  · rename_i h
    exact ⟨rfl, rfl, fun htrue => absurd htrue h, fun _ => .inl ⟨rfl, nofun⟩⟩

theorem catch_moves (a : Attempt) (message : String) : Moves a (a.catch message) := by
  unfold Attempt.catch
  split
  · rename_i h
    exact ⟨rfl, rfl, fun _ => rfl, fun hfalse => absurd (h.symm.trans hfalse) (by decide)⟩
  · have hround := round_moves { a with lastError := some message, i := a.i + 1 }
    exact ⟨hround.deps, hround.cancelled, hround.silent, hround.speaks⟩

theorem reply_moves (keccak256 : String → Except String String) (a : Attempt) (answer : Except String Code) :
    Moves a (a.reply keccak256 answer) := by
  unfold Attempt.reply
  cases answer with
  | error message => exact catch_moves a message
  | ok code =>
    dsimp only
    split
    · rename_i h
      exact ⟨rfl, rfl, fun _ => rfl, fun hfalse => absurd (h.symm.trans hfalse) (by decide)⟩
    · rename_i h
      have hjudged : computeVerificationState keccak256 a.deps.gatewayAddress a.deps.expectedCodeHash
          (resolvedCode code) ≠ .ok .pending := (resolved_not_pending code).1
      cases hverdict : computeVerificationState keccak256 a.deps.gatewayAddress a.deps.expectedCodeHash
        (resolvedCode code) with
      | error message => exact catch_moves a message
      | ok state =>
        refine ⟨rfl, rfl, fun htrue => absurd htrue h, fun _ => .inr ⟨rfl, state, rfl, ?_⟩⟩
        rintro rfl
        exact hjudged hverdict

/-- Only an answer with code verifies. -/
theorem reply_verified {keccak256 : String → Except String String} {answer : Except String Code} {hash : String}
    (h : (a.reply keccak256 answer).2 = some (.verified hash)) :
    a.cancelled = false ∧ hashMissing a.deps.expectedCodeHash = false ∧
      ∃ text, answer = .ok (.hex text) ∧ keccak256 text = .ok hash ∧
        lowerCase hash = lowerCase (a.deps.expectedCodeHash.getD "") := by
  have hround : ∀ a : Attempt, a.round.2 ≠ some (.verified hash) := by
    intro a
    unfold Attempt.round
    split
    · exact nofun
    · split <;> simp
  have hcatch : ∀ message, (a.catch message).2 ≠ some (.verified hash) := by
    intro message
    unfold Attempt.catch
    split
    · exact nofun
    · exact hround _
  unfold Attempt.reply at h
  cases answer with
  | error message => exact absurd h (hcatch message)
  | ok code =>
    dsimp only at h
    split at h
    · cases h
    · rename_i hlive
      cases hverdict : computeVerificationState keccak256 a.deps.gatewayAddress a.deps.expectedCodeHash
        (resolvedCode code) with
      | error message =>
        rw [hverdict] at h
        exact absurd h (hcatch message)
      | ok state =>
        rw [hverdict] at h
        obtain rfl : state = .verified hash := by simpa using h
        obtain ⟨hpinned, -, text, hres, h0x, -, hhash, hsame⟩ := verified_iff.mp hverdict
        refine ⟨by simpa using hlive, hpinned, text, ?_, hhash, hsame⟩
        unfold resolvedCode at hres
        split at hres
        · cases hres
        · rw [hres]

/-! ### What the effect does -/

/-- What the effect checks before it asks the wallet. -/
structure Asks (b : Build) (d : Deps) : Prop where
  isConnected : d.isConnected = true
  pinned : hashMissing d.expectedCodeHash = false
  address : addressMissing d.gatewayAddress = false
  chain : ∀ target ∈ b.targetChainId, d.chainId = target

/-- The body of the effect asks, with everything checked, or it says idle or refused at once. -/
theorem body_cases (b : Build) (s : Hook) (provider : Bool) :
    (Asks b s.deps ∧ provider = true ∧ s.body b provider = s.start true) ∨
      ∃ state, s.body b provider = { s with state := state } ∧ state ≠ .pending ∧
        ∀ hash, state ≠ .verified hash := by
  unfold Hook.body
  split
  · exact .inr ⟨_, rfl, nofun, nofun⟩
  · rename_i hconnected
    rcases @undefined_verdict b.keccak256 s.deps.gatewayAddress s.deps.expectedCodeHash with
      ⟨hwait, hpinned, haddress⟩ | ⟨reason, hrefused⟩
    · rw [hwait]
      dsimp only
      -- the next question of the source is never answered with yes
      have hnot : ¬(s.deps.gatewayAddress = "" ∨ s.deps.gatewayAddress = zeroAddressText ∨
          s.deps.expectedCodeHash.getD "" = "") := by
        simp only [addressMissing, Bool.or_eq_false_iff, decide_eq_false_iff_not] at haddress
        rintro (h | h | h)
        · exact haddress.1 h
        · exact haddress.2 h
        · cases hexp : s.deps.expectedCodeHash with
          | none => simp [hexp, hashMissing] at hpinned
          | some expected =>
            obtain rfl : expected = "" := by simpa [hexp] using h
            simp [hexp, hashMissing] at hpinned
      rw [Hook.checkChain, if_neg hnot]
      split
      · exact .inr ⟨_, rfl, nofun, nofun⟩
      · rename_i hchain
        cases provider with
        | false => exact .inr ⟨_, rfl, nofun, nofun⟩
        | true =>
          refine .inl ⟨⟨by simpa using hconnected, hpinned, haddress, ?_⟩, rfl, rfl⟩
          intro target htarget
          by_contra hne
          exact hchain ⟨target, htarget, hne⟩
    · rw [hrefused]
      exact .inr ⟨_, rfl, nofun, nofun⟩

/-! ### One question at a time -/

/-- The token of an attempt is live only where it is the one that the next cleanup cancels, the attempt closes
over what the effect saw last, and all of that was checked; and the hook shows that it waits as long as
such an attempt goes on. -/
structure Hook.Coherent (b : Build) (s : Hook) : Prop where
  live : ∀ (k : ℕ) (a : Attempt), s.attempts[k]? = some a → a.cancelled = false →
    s.cleanup = some k ∧ s.ran = some a.deps ∧ Asks b a.deps
  pending : s.state = .pending ↔
    ∃ (k : ℕ) (a : Attempt), s.attempts[k]? = some a ∧ a.cancelled = false ∧ a.phase ≠ .over

theorem mount_coherent (b : Build) (deps : Deps) : (Hook.mount deps).Coherent b :=
  ⟨fun k a h => by simp [Hook.mount] at h, by simp [Hook.mount]⟩

/-- An attempt of the list after a token is cancelled. -/
theorem getElem?_cancel {attempts : List Attempt} {k j : ℕ} {a : Attempt}
    (h : (cancel attempts k)[j]? = some a) (hlive : a.cancelled = false) :
    attempts[j]? = some a ∧ j ≠ k := by
  unfold cancel at h
  rw [List.getElem?_modify] at h
  obtain ⟨a₀, ha₀, hmap⟩ : ∃ a₀, attempts[j]? = some a₀ ∧
      (if k = j then { a₀ with cancelled := true } else a₀) = a := by
    cases ha₀ : attempts[j]? with
    | none => simp [ha₀] at h
    | some a₀ => exact ⟨a₀, rfl, by simpa [ha₀] using h⟩
  split at hmap
  · rw [← hmap] at hlive
    cases hlive
  · rename_i hne
    exact ⟨by rw [ha₀, hmap], Ne.symm hne⟩

/-- After the cleanup every token is cancelled. -/
theorem Hook.Coherent.cleanUp (h : s.Coherent b) :
    ∀ (k : ℕ) (a : Attempt), s.cleanUp.attempts[k]? = some a → a.cancelled = true := by
  intro k a ha
  by_contra hlive
  have hlive : a.cancelled = false := by simpa using hlive
  unfold Hook.cleanUp at ha
  cases hclean : s.cleanup with
  | none =>
    simp only [hclean, Option.elim_none] at ha
    have hcleanup := (h.live k a ha hlive).1
    rw [hclean] at hcleanup
    cases hcleanup
  | some j =>
    simp only [hclean, Option.elim_some] at ha
    obtain ⟨ha, hne⟩ := getElem?_cancel ha hlive
    have hcleanup := (h.live k a ha hlive).1
    rw [hclean] at hcleanup
    exact hne (Option.some.inj hcleanup).symm

theorem Hook.Coherent.effect (h : s.Coherent b) (provider : Bool) : (s.step b (.effect provider)).Coherent b := by
  have hnone := h.cleanUp
  rcases body_cases b { s.cleanUp with ran := some s.deps } provider with ⟨hasks, -, hbody⟩ |
    ⟨state, hbody, hwait, -⟩
  · -- the new attempt is the only one whose token is live
    have hnew : ∀ (k : ℕ) (a : Attempt), (cancel s.cleanUp.attempts (s.cleanUp.attempts.length - 1) ++
        [(Attempt.mk s.deps false 0 none .sleeping).round.1])[k]? = some a → a.cancelled = false →
        k = (cancel s.cleanUp.attempts (s.cleanUp.attempts.length - 1)).length ∧
          a = (Attempt.mk s.deps false 0 none .sleeping).round.1 := by
      intro k a ha hlive
      rw [List.getElem?_append] at ha
      split at ha
      · have hcancelled := hnone k a (getElem?_cancel ha hlive).1
        rw [hlive] at hcancelled
        cases hcancelled
      · rename_i hlt
        rw [List.getElem?_singleton] at ha
        split at ha
        · exact ⟨by omega, (Option.some.inj ha).symm⟩
        · cases ha
    change ({ s.cleanUp with ran := some s.deps }.body b provider).Coherent b
    rw [hbody]
    refine ⟨fun k a ha hlive => ?_, ⟨fun _ => ?_, fun _ => rfl⟩⟩
    · obtain ⟨rfl, rfl⟩ := hnew k a ha hlive
      exact ⟨rfl, rfl, hasks⟩
    · exact ⟨_, _, List.getElem?_concat_length, rfl, nofun⟩
  · change ({ s.cleanUp with ran := some s.deps }.body b provider).Coherent b
    rw [hbody]
    refine ⟨fun k a ha hlive => ?_, ⟨fun hpending => absurd hpending hwait, ?_⟩⟩
    · rw [hnone k a ha] at hlive
      cases hlive
    · rintro ⟨k, a, ha, hlive, -⟩
      rw [hnone k a ha] at hlive
      cases hlive

theorem Hook.Coherent.goOn (h : s.Coherent b) {k : ℕ} {phase : Phase} (hphase : phase ≠ .over)
    {f : Attempt → Attempt × Option VerificationState} (hf : ∀ a, Moves a (f a)) :
    (s.goOn k phase f).Coherent b := by
  unfold Hook.goOn
  split
  · exact h
  · rename_i a ha
    split
    · rename_i hp
      have hmove := hf a
      have hlt : k < s.attempts.length := (List.getElem?_eq_some_iff.mp ha).1
      have hset : ∀ (j : ℕ) (x : Attempt), (s.attempts.set k (f a).1)[j]? = some x →
          (j = k ∧ x = (f a).1) ∨ (j ≠ k ∧ s.attempts[j]? = some x) := by
        intro j x hx
        rw [List.getElem?_set] at hx
        split at hx
        · rename_i hj
          subst hj
          exact .inl ⟨rfl, (Option.some.inj hx).symm⟩
        · rename_i hj
          exact .inr ⟨Ne.symm hj, hx⟩
      refine ⟨fun j x hx hlive => ?_, ?_⟩
      · rcases hset j x hx with ⟨rfl, rfl⟩ | ⟨-, hold⟩
        · rw [hmove.deps]
          exact h.live j a ha (by rw [← hmove.cancelled, hlive])
        · exact h.live j x hold hlive
      · cases hc : a.cancelled with
        | true =>
          -- nothing is shown, and the live attempts are the old ones
          change (f a).2.getD s.state = .pending ↔ _
          rw [hmove.silent hc, Option.getD_none, h.pending]
          constructor
          · rintro ⟨j, x, hx, hlive, hgoing⟩
            refine ⟨j, x, ?_, hlive, hgoing⟩
            have hne : k ≠ j := by
              rintro rfl
              rw [ha] at hx
              obtain rfl := Option.some.inj hx
              rw [hc] at hlive
              cases hlive
            rw [List.getElem?_set_ne hne]
            exact hx
          · rintro ⟨j, x, hx, hlive, hgoing⟩
            rcases hset j x hx with ⟨rfl, rfl⟩ | ⟨-, hold⟩
            · rw [hmove.cancelled, hc] at hlive
              cases hlive
            · exact ⟨j, x, hold, hlive, hgoing⟩
        | false =>
          have hwaits : s.state = .pending := h.pending.mpr ⟨k, a, ha, hc, by rw [hp]; exact hphase⟩
          change (f a).2.getD s.state = .pending ↔ _
          rcases hmove.speaks hc with ⟨hquiet, hgoes⟩ | ⟨hover, state, hstate, hne⟩
          · rw [hquiet, Option.getD_none]
            refine ⟨fun _ => ⟨k, (f a).1, ?_, by rw [hmove.cancelled, hc], hgoes⟩, fun _ => hwaits⟩
            rw [List.getElem?_set_self hlt]
          · rw [hstate, Option.getD_some]
            refine ⟨fun h => absurd h hne, ?_⟩
            rintro ⟨j, x, hx, hlive, hgoing⟩
            rcases hset j x hx with ⟨rfl, rfl⟩ | ⟨hj, hold⟩
            · exact absurd hover hgoing
            · -- two live tokens would be the same one
              have h₁ := (h.live k a ha hc).1
              rw [(h.live j x hold hlive).1] at h₁
              exact absurd (Option.some.inj h₁) hj
    · exact h

theorem Hook.Coherent.step (h : s.Coherent b) (e : Event) : (s.step b e).Coherent b := by
  cases e with
  | render deps => exact ⟨h.live, h.pending⟩
  | effect provider => exact h.effect provider
  | wake k => exact h.goOn (show Phase.sleeping ≠ .over by decide) wake_moves
  | reply k answer => exact h.goOn (show Phase.asking ≠ .over by decide) fun a => reply_moves b.keccak256 a answer

theorem after_coherent (b : Build) (mount : Deps) (events : List Event) :
    (Hook.after b mount events).Coherent b := by
  unfold Hook.after
  exact List.foldlRecOn events (Hook.step b) (mount_coherent b mount) fun _ h e _ => h.step e

/-! ### Verified -/

/-- The last effect of these events asked the wallet for the code at an address, under these dependencies,
and the answer hashes to the pinned value. -/
def Answered (b : Build) (mount : Deps) (events : List Event) (d : Deps) (hash : String) : Prop :=
  ∃ pre k text post a, events = pre ++ .reply k (.ok (.hex text)) :: post ∧
    (∀ provider, .effect provider ∉ post) ∧ (Hook.after b mount pre).attempts[k]? = some a ∧
    a.phase = .asking ∧ a.deps = d ∧ b.keccak256 text = .ok hash ∧
    lowerCase hash = lowerCase (d.expectedCodeHash.getD "")

variable {mount d : Deps} {events : List Event} {hash : String}

theorem after_snoc (b : Build) (mount : Deps) (events : List Event) (e : Event) :
    Hook.after b mount (events ++ [e]) = (Hook.after b mount events).step b e := by
  simp [Hook.after]

theorem Answered.snoc (h : Answered b mount events d hash) {e : Event} (he : ∀ provider, e ≠ .effect provider) :
    Answered b mount (events ++ [e]) d hash := by
  obtain ⟨pre, k, text, post, a, rfl, hpost, hrest⟩ := h
  refine ⟨pre, k, text, post ++ [e], a, by simp, ?_, hrest⟩
  intro provider hmem
  rcases List.mem_append.mp hmem with hmem | hmem
  · exact hpost provider hmem
  · exact he provider (List.mem_singleton.mp hmem).symm

/-- What goes on with an attempt keeps what the effect saw, and shows the old state or what the attempt sets. -/
theorem goOn_shows {k : ℕ} {phase : Phase} {f : Attempt → Attempt × Option VerificationState} :
    (s.goOn k phase f).ran = s.ran ∧ ((s.goOn k phase f).state = s.state ∨
      ∃ a, s.attempts[k]? = some a ∧ a.phase = phase ∧ (f a).2 = some (s.goOn k phase f).state) := by
  unfold Hook.goOn
  split
  · exact ⟨rfl, .inl rfl⟩
  · rename_i a ha
    split
    · rename_i hphase
      refine ⟨rfl, ?_⟩
      cases hset : (f a).2 with
      | none => exact .inl rfl
      | some state => exact .inr ⟨a, ha, hphase, by simp [hset]⟩
    · exact ⟨rfl, .inl rfl⟩

/-- **Verified is the wallet's word about the address in force**: in any order of renderings, effects, timers
and answers, the hook shows `verified` only on an answer to a question of the effect that ran last. -/
theorem verified_answered (h : (Hook.after b mount events).state = .verified hash) :
    ∃ d, (Hook.after b mount events).ran = some d ∧ Asks b d ∧ Answered b mount events d hash := by
  induction events using List.reverseRecOn with
  | nil => cases h
  | append_singleton events e ih =>
    rw [after_snoc] at h ⊢
    have hcoherent := after_coherent b mount events
    cases e with
    | render deps =>
      obtain ⟨d, hran, hasks, hanswered⟩ := ih h
      exact ⟨d, hran, hasks, hanswered.snoc nofun⟩
    | effect provider =>
      -- the effect never leaves the hook verified
      rcases body_cases b { (Hook.after b mount events).cleanUp with ran := some (Hook.after b mount events).deps }
        provider with ⟨-, -, hbody⟩ | ⟨state, hbody, -, hnot⟩
      · rw [Hook.step, hbody] at h
        cases h
      · rw [Hook.step, hbody] at h
        exact absurd h (hnot hash)
    | wake k =>
      obtain ⟨hran, hstate | ⟨a, -, -, hsets⟩⟩ := @goOn_shows (Hook.after b mount events) k .sleeping Attempt.wake
      · obtain ⟨d, hold, hasks, hanswered⟩ := ih (hstate.symm.trans h)
        exact ⟨d, hran.trans hold, hasks, hanswered.snoc nofun⟩
      · have hquiet : a.wake.2 = none := by
          unfold Attempt.wake
          split <;> rfl
        rw [hquiet] at hsets
        cases hsets
    | reply k answer =>
      obtain ⟨hran, hstate | ⟨a, ha, hphase, hsets⟩⟩ := @goOn_shows (Hook.after b mount events) k .asking
        fun a => a.reply b.keccak256 answer
      · obtain ⟨d, hold, hasks, hanswered⟩ := ih (hstate.symm.trans h)
        exact ⟨d, hran.trans hold, hasks, hanswered.snoc nofun⟩
      · have hverified : (a.reply b.keccak256 answer).2 = some (.verified hash) := hsets.trans (congrArg some h)
        obtain ⟨hlive, -, text, rfl, hhash, hsame⟩ := reply_verified hverified
        obtain ⟨-, hold, hasks⟩ := hcoherent.live k a ha hlive
        exact ⟨a.deps, hran.trans hold, hasks, events, k, text, [], a, by simp, by simp, ha, hphase, rfl,
          hhash, hsame⟩

/-! ### Behind a signing prompt -/

theorem success_verified {v : Viem} {action : AdminAction} {ctx : PreviewContext} {p : PreviewSuccess}
    (h : buildPreview v action ctx = .success p) : ctx.gatewayCodeHashVerified = true ∧ p.target = ctx.gateway := by
  unfold buildPreview at h
  split at h
  · cases h
  · rename_i hverified
    split at h
    · cases h
    · split at h
      · cases h
      · cases h
      · cases h
        exact ⟨by simpa using hverified, rfl⟩

/-- **A prompt stands on a fresh check**: a preview that can be signed, drawn once the effects have run, goes
to an address whose code the wallet has given, on the build's chain, since the dependencies last changed. -/
theorem prompt_checked {v : Viem} {action : AdminAction} {envClass : EnvClass} {p : PreviewSuccess}
    (hflushed : (Hook.after b mount events).ran = some (Hook.after b mount events).deps)
    (h : buildPreview v action ((Hook.after b mount events).context envClass) = .success p) :
    p.target = (Hook.after b mount events).deps.gatewayAddress ∧ Asks b (Hook.after b mount events).deps ∧
      ∃ hash, Answered b mount events (Hook.after b mount events).deps hash := by
  obtain ⟨hverified, htarget⟩ := success_verified h
  cases hstate : (Hook.after b mount events).state with
  | verified hash =>
    obtain ⟨d, hran, hasks, hanswered⟩ := verified_answered hstate
    obtain rfl : (Hook.after b mount events).deps = d := Option.some.inj (hflushed.symm.trans hran)
    exact ⟨htarget, hasks, hash, hanswered⟩
  | idle => simp [Hook.context, hstate, VerificationState.isVerified] at hverified
  | pending => simp [Hook.context, hstate, VerificationState.isVerified] at hverified
  | refused reason => simp [Hook.context, hstate, VerificationState.isVerified] at hverified

/-- The hash of the code `0x00`. -/
def zeroCodeHash : String := "0xbc36789e7a1e281436464229828f817d6612f7b477d66591ff96a9e064bcc98a"

def sampleBuild : Build := ⟨some 918453, fun _ => .ok zeroCodeHash⟩

def sampleDeps : Deps :=
  ⟨"0x00000000000000000000000000000000000000aa", some zeroCodeHash, true, 918453, 0⟩

/-- The effect runs, the wallet fails once, and answers after the delay. -/
def sampleEvents : List Event :=
  [.effect true, .reply 0 (.error "circuit breaker open"), .wake 0, .reply 0 (.ok (.hex "0x00"))]

def sampleViem : Viem :=
  ⟨fun _ => true, .ok, fun _ => .ok "0x8456cb59", fun _ => .ok .pause, fun _ => .ok "0x8456cb59"⟩

theorem sample_state : (Hook.after sampleBuild sampleDeps sampleEvents).state = .verified zeroCodeHash := by
  decide +kernel

/-- A build that pins the hash of the code `0x00`, after a retry. -/
theorem prompt_checked_sample :
    Asks sampleBuild sampleDeps ∧ ∃ hash, Answered sampleBuild sampleDeps sampleEvents sampleDeps hash :=
  (@prompt_checked sampleBuild sampleDeps sampleEvents sampleViem .pause .devnet
    ⟨sampleDeps.gatewayAddress, true, .pause, "0x8456cb59", [],
      "Gateway enters paused state; deposit() reverts until unpause() is called.", .unsafeRisk, "0x8456cb59"⟩
    rfl (by
      have hverified : (Hook.after sampleBuild sampleDeps sampleEvents).context .devnet =
          ⟨sampleDeps.gatewayAddress, true, .devnet⟩ := by
        rw [Hook.context, sample_state]
        rfl
      rw [hverified]
      rfl)).2

/-- **Waiting ends with the question**: the hook shows that it waits exactly while an attempt whose token is
live goes on; no verdict stands while the wallet is still being asked, and no wait outlasts the last retry. -/
theorem pending_iff_asking :
    (Hook.after b mount events).state = .pending ↔
      ∃ (k : ℕ) (a : Attempt), (Hook.after b mount events).attempts[k]? = some a ∧ a.cancelled = false ∧
        a.phase ≠ .over :=
  (after_coherent b mount events).pending

end RobotMoney.Dapp
