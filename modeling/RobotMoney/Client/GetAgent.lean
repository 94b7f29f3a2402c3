import RobotMoney.Client.Mirror
import RobotMoney.Client.ReadOutput
import RobotMoney.Gateway.Storage

/-!
# The record of an agent, as the client prints it

`rmpc get-agent` reads the policy of an agent, the share allowance it has given the gateway, and how much
it has deposited in the current window, all in one block.  For the last it asks for `agentWindowGross` in
the calendar window of the block, the mapping that the gateway no longer writes.  What the gateway counts
is the rolling window, which `effectiveDepositWindowGross` shows and the client's own preflight reads.

So what is printed is zero (`windowGross_eq_zero`), and it is what a deposit is charged with exactly when
the rolling window has expired (`windowGross_enforced_iff`).
-/

namespace RobotMoney.Client.GetAgent

open RobotMoney.Lib
open RobotMoney.Gateway (Env State Storage AgentPolicy World RollingWindow windowSeconds GatewayError)
open RobotMoney.Gateway.State (GatewayCall)

/-- What the node answers: to the calls about the block, and to the views in a block. -/
structure Rpc where
  chainId : Result ℕ
  blockNumber : Result ℕ
  blockTimestamp : (blockNumber : ℕ) → Result ℕ
  callAgents : (gateway : Address) → (blockTag : String) → (agent : Address) → Except String AgentsReturn
  callShareAllowance : (vault : Address) → (blockTag : String) → (owner spender : Address) →
    Except String ℕ
  callWindowGross : (gateway : Address) → (blockTag : String) → (agent : Address) → (windowId : ℕ) →
    Except String ℕ

/-- The payload, with its defaults. -/
structure AgentData where
  agent : String := ""
  active : Bool := false
  validUntil : ℕ := 0
  maxPerPayment : ℕ := 0
  maxPerWindow : ℕ := 0
  shareReceiver : String := ""
  assetRecipient : String := ""
  maxWithdrawPerPayment : ℕ := 0
  maxWithdrawPerWindow : ℕ := 0
  withdrawalsEnabled : Bool := false
  shareAllowance : ℕ := 0
  windowId : ℕ := 0
  windowGross : ℕ := 0

namespace AgentData

/-- The fields that `agents(agent)` gives. -/
def setAgents (t : AgentsReturn) (d : AgentData) : AgentData :=
  { d with
    active := t.active
    validUntil := t.validUntil
    maxPerPayment := t.maxPerPayment
    maxPerWindow := t.maxPerWindow
    shareReceiver := lowerHex t.shareReceiver
    assetRecipient := lowerHex t.assetRecipient
    maxWithdrawPerPayment := t.maxWithdrawPerPayment
    maxWithdrawPerWindow := t.maxWithdrawPerWindow
    withdrawalsEnabled := decide (t.maxWithdrawPerPayment ≠ 0) }

def setShareAllowance (v : ℕ) (d : AgentData) : AgentData := { d with shareAllowance := v }

def setWindowId (id : ℕ) (d : AgentData) : AgentData := { d with windowId := id }

def setWindowGross (v : ℕ) (d : AgentData) : AgentData := { d with windowGross := v }

end AgentData

/-- The window id of a block, from its timestamp. -/
def windowIdOf (rpc : Rpc) (blockNumber : ℕ) : Except String ℕ :=
  match rpc.blockTimestamp blockNumber with
  | .ok ts => .ok (ts / windowSeconds)
  | .error e => .error ("eth_getBlockByNumber failed: " ++ e.display)

/-- `read_agent` -/
def readAgent (rpc : Rpc) (gateway vault agent : Address) : Result (Envelope AgentData) := do
  let chainId ← rpc.chainId
  let blockNumber ← rpc.blockNumber
  let tag := blockTag blockNumber
  let b := PartialBuilder.new chainId blockNumber { agent := lowerHex agent }
  let b := b.read "agents" (rpc.callAgents gateway tag agent) AgentData.setAgents
  let b := b.read "share_allowance" (rpc.callShareAllowance vault tag agent gateway)
    AgentData.setShareAllowance
  let windowId := windowIdOf rpc blockNumber
  let b := b.read "window_id" windowId AgentData.setWindowId
  let b :=
    match windowId with
    | .ok id =>
      b.read "window_gross" (rpc.callWindowGross gateway tag agent id) AgentData.setWindowGross
    | .error _ => b
  pure b.finish

/-- `EXIT_STARTUP_FAIL` -/
def exitStartupFail : ℕ := 3

/-- `run`, with the configuration loaded: the envelope that is printed, or the exit code. -/
def run (c : Crates) (rpc : Rpc) (cfg : Config) (agentHex : String) : Except ℕ (Envelope AgentData) := do
  let agent ← (c.addressFromStr agentHex).mapError fun _ => exitStartupFail
  let gatewayAddr ← (c.addressFromStr cfg.gatewayAddress).mapError fun _ => exitStartupFail
  let vaultAddr ← (c.addressFromStr cfg.vaultAddress).mapError fun _ => exitStartupFail
  (readAgent rpc gatewayAddr vaultAddr agent).mapError fun _ => exitStartupFail

/-- What the node answers, when it answers, is the state `s` of the gateway that the client is configured
with, in the block `b`. -/
structure Shows {V : Type} (c : Crates) (rpc : Rpc) (cfg : Config) (env : Env V) (s : Storage V)
    (b : Block) : Prop where
  gateway : c.addressFromStr cfg.gatewayAddress = .ok env.self
  blockNumber : ∀ n, rpc.blockNumber = .ok n → n = b.number
  timestamp : ∀ t, rpc.blockTimestamp b.number = .ok t → t = b.timestamp
  agents : ∀ agent t, rpc.callAgents env.self (blockTag b.number) agent = .ok t →
    t = agentsView (s.agents agent)
  windowGross : ∀ agent id v, rpc.callWindowGross env.self (blockTag b.number) agent id = .ok v →
    v = s.agentWindowGross agent id

theorem mapError_eq_ok {ε ε' α : Type} {x : Except ε α} {f : ε → ε'} {a : α} :
    x.mapError f = .ok a ↔ x = .ok a := by
  cases x <;> simp [Except.mapError]

/-- When every read succeeds, each field is what was read for it. -/
theorem readAgent_complete {rpc : Rpc} {gateway vault agent : Address} {out : Envelope AgentData}
    (h : readAgent rpc gateway vault agent = .ok out) (hp : out.isPartial = false) :
    ∃ n t allowance ts gross, rpc.blockNumber = .ok n ∧ rpc.callAgents gateway (blockTag n) agent = .ok t ∧
      rpc.callShareAllowance vault (blockTag n) agent gateway = .ok allowance ∧
      rpc.blockTimestamp n = .ok ts ∧
      rpc.callWindowGross gateway (blockTag n) agent (ts / windowSeconds) = .ok gross ∧
      out.data = (({ agent := lowerHex agent : AgentData }.setAgents t).setShareAllowance allowance
        |>.setWindowId (ts / windowSeconds)).setWindowGross gross := by
  unfold readAgent at h
  simp only [bind_eq_ok, pure_eq_ok] at h
  obtain ⟨chainId, -, n, hn, h⟩ := h
  cases hts : rpc.blockTimestamp n with
  | error e =>
    -- the window id is then among the errors
    have hid : windowIdOf rpc n = .error ("eth_getBlockByNumber failed: " ++ e.display) := by
      simp [windowIdOf, hts]
    rw [hid] at h
    subst h
    rw [PartialBuilder.finish_isPartial, PartialBuilder.read_errors_eq_nil] at hp
    obtain ⟨-, _, hx⟩ := hp
    cases hx
  | ok ts =>
    have hid : windowIdOf rpc n = .ok (ts / windowSeconds) := by simp [windowIdOf, hts]
    rw [hid] at h
    subst h
    simp only [PartialBuilder.finish_isPartial, PartialBuilder.read_errors_eq_nil] at hp
    obtain ⟨⟨⟨⟨-, t, ht⟩, allowance, hallowance⟩, -⟩, gross, hgross⟩ := hp
    refine ⟨n, t, allowance, ts, gross, hn, ht, hallowance, hts, hgross, ?_⟩
    simp only [ht, hallowance, hgross, PartialBuilder.finish_data, PartialBuilder.read,
      PartialBuilder.dataMut_data]
    rfl

section Window

variable {V : Type} {c : Crates} {rpc : Rpc} {cfg : Config} {env : Env V} {s : Storage V} {b : Block}
  {agentHex : String} {agent : Address} {out : Envelope AgentData}

/-- What is printed of the window, when every read succeeds: the policy's cap, and the mapping that
nothing writes, in the calendar window of the block. -/
theorem Shows.printed (h : Shows c rpc cfg env s b) (hagent : c.addressFromStr agentHex = .ok agent)
    (hrun : run c rpc cfg agentHex = .ok out) (hp : out.isPartial = false) :
    out.data.maxPerWindow = (s.agents agent).maxPerWindow ∧
      out.data.windowGross = s.agentWindowGross agent (b.timestamp / windowSeconds) := by
  unfold run at hrun
  simp only [bind_eq_ok, mapError_eq_ok, hagent, h.gateway, Except.ok.injEq, exists_eq_left'] at hrun
  obtain ⟨vault, -, hread⟩ := hrun
  obtain ⟨n, t, allowance, ts, gross, hn, ht, -, hts, hgross, hdata⟩ := readAgent_complete hread hp
  obtain rfl := h.blockNumber n hn
  obtain rfl := h.timestamp ts hts
  obtain rfl := h.agents agent t ht
  obtain rfl := h.windowGross agent _ gross hgross
  rw [hdata]
  exact ⟨rfl, rfl⟩

theorem Shows.windowGross_eq_zero (h : Shows c rpc cfg env s b) (hkept : s.Kept)
    (hagent : c.addressFromStr agentHex = .ok agent) (hrun : run c rpc cfg agentHex = .ok out)
    (hp : out.isPartial = false) : out.data.windowGross = 0 := by
  rw [(h.printed hagent hrun hp).2]
  exact hkept.unwritten agent _

/-- The window check of a deposit of `amount`, on the sum of what the window is charged with and the
amount. -/
theorem accrueRollingDeposit_ok_iff {t : State V} {amount cap : ℕ} :
    (∃ t', t.accrueRollingDeposit b agent amount cap = .ok t') ↔
      t.effectiveDepositWindowGross b agent + amount < wordSize ∧
        t.effectiveDepositWindowGross b agent + amount ≤ cap := by
  unfold State.effectiveDepositWindowGross State.accrueRollingDeposit
  rw [← accrue_ok_iff (e := .windowCapExceeded)]
  simp only [bind_eq_ok, pure_eq_ok]
  constructor
  · rintro ⟨_, w, hw, -⟩
    exact ⟨w, hw⟩
  · rintro ⟨w, hw⟩
    exact ⟨_, w, hw, rfl⟩

/-- **What `get-agent` says of the window.**  In every run of the deployed gateway and for every agent and
pinned block, if the reads succeed: the printed `window_gross` is what a deposit in that block is charged
with beside its own amount, and deposits pass the window check as the printed numbers say, exactly when the
agent's rolling window has expired. -/
theorem windowGross_enforced_iff {vaultAsset admin pauser : Address} {world : World V} {s₀ : Storage V}
    {txs : List (Tx (GatewayCall V))} (h₀ : Storage.deploy env vaultAsset admin pauser world = .ok s₀)
    (hs : Lib.run (Storage.exec env) s₀ txs = s) (h : Shows c rpc cfg env s b)
    (hagent : c.addressFromStr agentHex = .ok agent) (hrun : run c rpc cfg agentHex = .ok out)
    (hp : out.isPartial = false) :
    (out.data.windowGross = s.effectiveDepositWindowGross b agent ∧
      ∀ amount < wordSize,
        (∃ s', s.accrueRollingDeposit b agent amount (s.agents agent).maxPerWindow = .ok s') ↔
          out.data.windowGross + amount ≤ out.data.maxPerWindow) ↔
      (s.agentDepositWindow agent).Expired b := by
  have hkept : s.Kept := by
    rw [← hs]
    exact Storage.run_kept h₀ txs
  have hzero : out.data.windowGross = 0 := h.windowGross_eq_zero hkept hagent hrun hp
  have hcap := (h.printed hagent hrun hp).1
  rw [hzero, hcap]
  constructor
  · rintro ⟨heq, -⟩
    exact (hkept.effective_eq_zero_iff b agent).mp heq.symm
  · intro hexp
    have heff := (hkept.effective_eq_zero_iff b agent).mpr hexp
    refine ⟨heff.symm, ?_⟩
    intro amount hlt
    rw [accrueRollingDeposit_ok_iff, heff, zero_add]
    exact and_iff_right hlt

end Window

/-! ### A payment that is not shown -/

section Sample

open RobotMoney.Gateway (mockVault deployed agentWorld upTo100)

/-- The crates, which read the agent's address as well. -/
def agentCrates : Crates :=
  { mockCrates with
    addressFromStr := fun text =>
      if text = "0x0000000000000000000000000000000000000007" then .ok 7 else mockCrates.addressFromStr text }

/-- A node that answers from a state, in a block. -/
def nodeAt {V : Type} (env : Env V) (s : Storage V) (b : Block) : Rpc where
  chainId := .ok env.chainid
  blockNumber := .ok b.number
  blockTimestamp _ := .ok b.timestamp
  callAgents _ _ agent := .ok (agentsView (s.agents agent))
  callShareAllowance _ _ owner spender := .ok (s.world.shares.allowance owner spender)
  callWindowGross _ _ agent id := .ok (s.agentWindowGross agent id)

theorem shows_nodeAt {V : Type} {env : Env V} {s : Storage V} {b : Block} (hself : env.self = 1) :
    Shows agentCrates (nodeAt env s b) mockConfig env s b where
  gateway := by
    rw [hself]
    rfl
  blockNumber n hn := (Except.ok.inj hn).symm
  timestamp t ht := (Except.ok.inj ht).symm
  agents agent t ht := (Except.ok.inj ht).symm
  windowGross agent id v hv := (Except.ok.inj hv).symm

/-- The gateway as deployed, and after a deposit of 30 units of the agent `7`. -/
def deployedStorage : Storage Unit := { deployed with agentWindowGross := fun _ _ => 0 }

def paid30 : Storage Unit :=
  Lib.run (Storage.exec mockVault) deployedStorage
    [.of 5 (.of 10 900) (.authorizeAgent 7 upTo100),
     .of 7 (.of 11 1000) (.deposit (.word 1) 30 1100 (.word 0))]

/-- A day later, all is as printed. -/
theorem windowGross_enforced_iff_dayLater :
    ∃ out, run agentCrates (nodeAt mockVault paid30 (.of 12 87400)) mockConfig
        "0x0000000000000000000000000000000000000007" = .ok out ∧
      out.isPartial = false ∧ out.data.maxPerWindow = 100 ∧
      out.data.windowGross = paid30.effectiveDepositWindowGross (.of 12 87400) 7 := by
  have h₀ : Storage.deploy mockVault 2 20 21 agentWorld = .ok deployedStorage := rfl
  have hshows := shows_nodeAt (show mockVault.self = 1 from rfl) (s := paid30) (b := .of 12 87400)
  have hagent : agentCrates.addressFromStr "0x0000000000000000000000000000000000000007" = .ok 7 := rfl
  refine ⟨_, rfl, by decide, by decide, ?_⟩
  exact ((windowGross_enforced_iff h₀ rfl hshows hagent rfl (by decide)).mpr (by decide)).1

/-- In the next block, 80 more units fit by what is printed, and the gateway refuses them. -/
theorem window_not_shown :
    ∃ out, run agentCrates (nodeAt mockVault paid30 (.of 12 1012)) mockConfig
        "0x0000000000000000000000000000000000000007" = .ok out ∧
      out.isPartial = false ∧ out.data.windowGross = 0 ∧ out.data.maxPerWindow = 100 ∧
      paid30.effectiveDepositWindowGross (.of 12 1012) 7 = 30 ∧
      out.data.windowGross + 80 ≤ out.data.maxPerWindow ∧
      reason (paid30.accrueRollingDeposit (.of 12 1012) 7 80 (paid30.agents 7).maxPerWindow) =
        some (.custom .windowCapExceeded) := by
  refine ⟨_, rfl, by decide, by decide, by decide, by decide, by decide, by decide⟩

end Sample

end RobotMoney.Client.GetAgent
