import RobotMoney.Deploy.System
import RobotMoney.Gateway.Payments
import RobotMoney.Vault.SharePrice

/-!
# The handover of the contracts to a timelock

`DeployTimelock`: on each of the five contracts the script grants `ADMIN_ROLE` to a new timelock, checks that it
has it, revokes the role from the account that runs the script, and checks that this one does not have it.

On four contracts that is the end of the deployer's rule: whatever anybody calls afterwards, a call that asks
for `ADMIN_ROLE` reverts for her, unless one of the holders the script left grants her the role
(`handover_closes`).  On the gateway it is not.  There the role is administered by `DEFAULT_ADMIN_ROLE`, which
the script does not touch, and which it needs: an account for which the script succeeds keeps it, can take
`ADMIN_ROLE` back from the timelock whenever it likes, and no call of others is in its way
(`gateway_reclaimed`).
-/

namespace RobotMoney.Deploy

open RobotMoney.Lib

variable {U V W : Type}

/-! ### The script -/

/-- The addresses and the delay that the script reads. -/
structure Deployed where
  vault : Address
  gateway : Address
  registry : Address
  router : Address
  governance : Address
  safe : Address
  minDelay : ℕ

/-- What the script asks of the account `SAFE_ADDRESS`; `none` is a call that reverts. -/
structure SafeView where
  codeLength : Address → ℕ
  getThreshold : Address → Option ℕ

/-- `_validate(d)` -/
def validate (view : SafeView) (d : Deployed) : Call String Unit := do
  revertIf (d.vault = 0) "VAULT_ADDRESS=0"
  revertIf (d.gateway = 0) "GATEWAY_ADDRESS=0"
  revertIf (d.registry = 0) "REGISTRY_ADDRESS=0"
  revertIf (d.router = 0) "ROUTER_ADDRESS=0"
  revertIf (d.governance = 0) "GOVERNANCE_ADDRESS=0"
  revertIf (d.safe = 0) "SAFE_ADDRESS=0"
  revertIf (d.minDelay = 0) "TIMELOCK_MIN_DELAY=0"
  revertIf (view.codeLength d.safe = 0) "SAFE_ADDRESS is an EOA: deploy a Safe multisig contract first"
  match view.getThreshold d.safe with
  | none => .error .innerCall
  | some threshold =>
    revertIf (threshold < 2) "SAFE_ADDRESS threshold < 2: configure at least 2-of-N quorum"

namespace Contract

/-- The word for a contract in the messages. -/
def name : Contract → String
  | vault => "vault"
  | gateway => "gateway"
  | registry => "registry"
  | router => "router"
  | governance => "governance"

/-- `grantRole(ADMIN_ROLE, account)` -/
def grantAdmin (c : Contract) (account : Address) : SystemCall U V W :=
  match c with
  | vault => .vault (.grantRole .adminRole account)
  | gateway => .gateway (.grantRole .adminRole account)
  | registry => .registry (.grantRole .adminRole account) fun _ => none
  | router => .router (.grantRole .adminRole account)
  | governance => .governance (.grantRole .adminRole account)

/-- `revokeRole(ADMIN_ROLE, account)` -/
def revokeAdmin (c : Contract) (account : Address) : SystemCall U V W :=
  match c with
  | vault => .vault (.revokeRole .adminRole account)
  | gateway => .gateway (.revokeRole .adminRole account)
  | registry => .registry (.revokeRole .adminRole account) fun _ => none
  | router => .router (.revokeRole .adminRole account)
  | governance => .governance (.revokeRole .adminRole account)

end Contract

/-- What the script does to one contract: grant, verify, revoke, verify. -/
def handOver (envs : Envs U V W) (tx : Tx Deployed) (timelock : Address) (s : System U V W) (c : Contract) :
    Call String (System U V W) := do
  let (s, _) ← inner (s.exec envs ⟨tx.block, tx.sender, c.grantAdmin timelock, tx.sender_ne⟩)
  revertIf (s.holds (.admin c) timelock = false) ("Timelock missing ADMIN_ROLE on " ++ c.name)
  let (s, _) ← inner (s.exec envs ⟨tx.block, tx.sender, c.revokeAdmin tx.sender, tx.sender_ne⟩)
  revertIf (s.holds (.admin c) tx.sender = true) ("Deployer still has ADMIN_ROLE on " ++ c.name)
  pure s

/-- `_deployAndWire(d)`, where `timelock` is the new contract. -/
def deployAndWire (envs : Envs U V W) (tx : Tx Deployed) (timelock : Address) (s : System U V W) :
    Call String (System U V W) :=
  [Contract.vault, .gateway, .registry, .router, .governance].foldlM (handOver envs tx timelock) s

/-- `runInProcess(...)`, and `run()` with its arguments from the environment: the script, run by `tx.sender`. -/
def runInProcess (view : SafeView) (envs : Envs U V W) (timelock : Address) (s : System U V W) (tx : Tx Deployed) :
    Call String (System U V W) := do
  validate view tx.call
  deployAndWire envs tx timelock s

variable {view : SafeView} {envs : Envs U V W} {timelock : Address} {tx : Tx Deployed} {s s' : System U V W}

/-! ### What the script leaves -/

/-- What a handover of some contracts changes: the timelock has their `ADMIN_ROLE`, the deployer has not, and
nobody else's role is another. -/
structure HandedOver (deployer timelock : Address) (cs : List Contract) (s s' : System U V W) : Prop where
  timelock_holds : ∀ c ∈ cs, s'.holds (.admin c) timelock = true
  deployer_out : ∀ c ∈ cs, s'.holds (.admin c) deployer = false
  others : ∀ seat a, (∀ c ∈ cs, seat = .admin c → a ≠ timelock ∧ a ≠ deployer) → s'.holds seat a = s.holds seat a

/-- A call that gives and takes nothing else leaves the other entries. -/
theorem exec_frame {t : Tx (SystemCall U V W)} {r : Unit} (h : s.exec envs t = .ok (s', r)) {seat : Seat}
    {a : Address} (hgives : t.call.gives ≠ some (seat, a)) (htakes : t.call.takes ≠ some (seat, a)) :
    s'.holds seat a = s.holds seat a :=
  (exec_steps envs seat s t s' r h).frame hgives htakes

theorem gives_grantAdmin (c : Contract) (a : Address) :
    (c.grantAdmin a : SystemCall U V W).gives = some (.admin c, a) ∧
      (c.grantAdmin a : SystemCall U V W).takes = none := by
  cases c <;> exact ⟨rfl, rfl⟩

theorem takes_revokeAdmin (c : Contract) (a : Address) :
    (c.revokeAdmin a : SystemCall U V W).takes = some (.admin c, a) ∧
      (c.revokeAdmin a : SystemCall U V W).gives = none := by
  cases c <;> exact ⟨rfl, rfl⟩

theorem handOver_ok {c : Contract} (hfresh : timelock ≠ tx.sender) (h : handOver envs tx timelock s c = .ok s') :
    HandedOver tx.sender timelock [c] s s' := by
  simp only [handOver, bind_eq_ok, inner_eq_ok, revertIf_eq_ok, Prod.exists, pure_eq_ok, Bool.not_eq_false,
    Bool.not_eq_true, exists_const] at h
  obtain ⟨s₁, r₁, h₁, htimelock, s₂, r₂, h₂, hdeployer, rfl⟩ := h
  obtain ⟨hg₁, ht₁⟩ := gives_grantAdmin (U := U) (V := V) (W := W) c timelock
  obtain ⟨ht₂, hg₂⟩ := takes_revokeAdmin (U := U) (V := V) (W := W) c tx.sender
  have hgrant : ∀ seat a, (seat, a) ≠ (.admin c, timelock) → s₁.holds seat a = s.holds seat a := by
    intro seat a hne
    refine exec_frame h₁ ?_ ?_
    · rw [hg₁]
      exact fun heq => hne (Option.some.inj heq).symm
    · rw [ht₁]
      exact fun heq => by cases heq
  have hrevoke : ∀ seat a, (seat, a) ≠ (.admin c, tx.sender) → s₂.holds seat a = s₁.holds seat a := by
    intro seat a hne
    refine exec_frame h₂ ?_ ?_
    · rw [hg₂]
      exact fun heq => by cases heq
    · rw [ht₂]
      exact fun heq => hne (Option.some.inj heq).symm
  constructor
  · intro c' hc'
    obtain rfl := List.mem_singleton.mp hc'
    rw [hrevoke _ _ fun heq => hfresh (Prod.mk.inj heq).2]
    exact htimelock
  · intro c' hc'
    obtain rfl := List.mem_singleton.mp hc'
    exact hdeployer
  · intro seat a hother
    have hne : ∀ b, b = timelock ∨ b = tx.sender → (seat, a) ≠ (.admin c, b) := by
      rintro b hb heq
      obtain ⟨rfl, rfl⟩ := Prod.mk.inj heq
      obtain ⟨h₁, h₂⟩ := hother c (List.mem_singleton_self c) rfl
      exact hb.elim h₁ h₂
    rw [hrevoke _ _ (hne _ (.inr rfl)), hgrant _ _ (hne _ (.inl rfl))]

theorem foldlM_handOver_ok (hfresh : timelock ≠ tx.sender) : ∀ {cs : List Contract} {s s' : System U V W},
    cs.foldlM (handOver envs tx timelock) s = .ok s' → HandedOver tx.sender timelock cs s s'
  | [], s, s', h => by
    cases h
    exact ⟨nofun, nofun, fun seat a _ => rfl⟩
  | c :: cs, s, s', h => by
    rw [List.foldlM_cons] at h
    obtain ⟨s₁, h₁, h₂⟩ := bind_eq_ok.mp h
    obtain ⟨htimelock, hdeployer, hothers⟩ := handOver_ok hfresh h₁
    obtain ⟨htimelock', hdeployer', hothers'⟩ := foldlM_handOver_ok hfresh h₂
    -- a contract that is handed over again later is as the later handover leaves it
    have hlater : ∀ c' ∈ c :: cs, ∀ a, c' ∈ cs ∨ s'.holds (.admin c') a = s₁.holds (.admin c') a ∧ c' = c := by
      intro c' hc' a
      by_cases hmem : c' ∈ cs
      · exact .inl hmem
      · refine .inr ⟨hothers' _ _ ?_, (List.mem_cons.mp hc').resolve_right hmem⟩
        rintro c'' hc'' ⟨⟩
        exact absurd hc'' hmem
    refine ⟨?_, ?_, ?_⟩
    · intro c' hc'
      obtain hmem | ⟨hsame, rfl⟩ := hlater c' hc' timelock
      · exact htimelock' c' hmem
      · rw [hsame]
        exact htimelock c' (List.mem_singleton_self c')
    · intro c' hc'
      obtain hmem | ⟨hsame, rfl⟩ := hlater c' hc' tx.sender
      · exact hdeployer' c' hmem
      · rw [hsame]
        exact hdeployer c' (List.mem_singleton_self c')
    · intro seat a hother
      rw [hothers' seat a fun c' hc' => hother c' (List.mem_cons_of_mem _ hc')]
      refine hothers seat a fun c' hc' => hother c' ?_
      rw [List.mem_singleton.mp hc']
      exact List.mem_cons_self

theorem runInProcess_ok (hfresh : timelock ≠ tx.sender)
    (hrun : runInProcess view envs timelock s tx = .ok s') (c : Contract) :
    HandedOver tx.sender timelock [.vault, .gateway, .registry, .router, .governance] s s' ∧
      c ∈ [Contract.vault, .gateway, .registry, .router, .governance] := by
  obtain ⟨-, -, hrun⟩ := bind_eq_ok.mp hrun
  exact ⟨foldlM_handOver_ok hfresh hrun, by cases c <;> decide⟩

/-! ### The script on newly constructed contracts -/

/-- The contracts after their constructors, with the admin `20`. -/
def constructed : System Unit Unit (Address → Address → ℕ) where
  vault := Vault.deployed
  gateway := Gateway.deployed
  governance :=
    { gov :=
        { votingPeriod := 3600
          executionDelay := 60
          quorumThreshold := 5
          votingPower := fun _ => 0
          totalVotingPower := 0
          proposals := fun _ => Governance.Proposal.default
          currentProposalId := 0
          hasVoted := fun _ _ => false
          roles := Portfolio.soleAdmin 20 }
      portfolio :=
        { Portfolio.RouterState.newRouter with
          router.roles := Portfolio.soleAdmin 20
          registry.roles := Portfolio.soleAdmin 20 } }

/-- Their surroundings. -/
def surroundings : Envs Unit Unit (Address → Address → ℕ) :=
  ⟨Vault.passthrough 1 2, Gateway.mockVault, ⟨3, Portfolio.RouterState.mockVaults 1 2⟩⟩

/-- The deployer `20` runs the script for a Safe of two owners. -/
def handover : Tx Deployed := .of 20 (.of 5 100) ⟨10, 11, 12, 13, 14, 15, 172800⟩

/-- What the script leaves, when the timelock comes to the account `30`. -/
def handedOver : System Unit Unit (Address → Address → ℕ) :=
  match runInProcess ⟨fun _ => 171, fun _ => some 2⟩ surroundings 30 constructed handover with
  | .ok s => s
  | .error _ => constructed

theorem runInProcess_constructed :
    runInProcess ⟨fun _ => 171, fun _ => some 2⟩ surroundings 30 constructed handover = .ok handedOver := rfl

/-- A call of the vault by an account. -/
def vaultCall (sender : Address) (call : Vault.State.VaultCall Unit) :
    Tx (SystemCall Unit Unit (Address → Address → ℕ)) :=
  .of sender (.of 6 200) (.vault call)

/-! ### Four contracts -/

/-- **The handover of a contract whose `ADMIN_ROLE` administers itself is final.** -/
theorem handover_closes (hfresh : timelock ≠ tx.sender) (hrun : runInProcess view envs timelock s tx = .ok s')
    {c : Contract} (hc : c ≠ .gateway) {txs : List (Tx (SystemCall U V W))}
    (hcircle : ∀ t ∈ txs, s'.holds (.admin c) t.sender = true →
      ∀ a, t.call.gives = some (.admin c, a) → s'.holds (.admin c) a = true) :
    (s'.holds (.admin c) timelock = true ∧ s'.holds (.admin c) tx.sender = false ∧
      ∀ a, a ≠ timelock → a ≠ tx.sender → s'.holds (.admin c) a = s.holds (.admin c) a) ∧
    (∀ t, s'.holds (.admin c) t.sender = false → t.call.asks = some c →
      (run (System.exec envs) s' txs).exec envs t = .error .unauthorizedAccount) ∧
    ((∀ t ∈ txs, s'.holds (.admin c) t.sender = true → t.call.takes ≠ some (.admin c, timelock)) →
      (run (System.exec envs) s' txs).holds (.admin c) timelock = true) := by
  obtain ⟨h, hmem⟩ := runInProcess_ok hfresh hrun c
  have hself : Seat.overseer (.admin c) = .admin c := by
    cases c <;> first | rfl | exact absurd rfl hc
  have htimelock := h.timelock_holds c hmem
  refine ⟨⟨htimelock, h.deployer_out c hmem, ?_⟩, ?_, ?_⟩
  · exact fun a h₁ h₂ => h.others _ _ fun _ _ _ => ⟨h₁, h₂⟩
  · intro t hout hasks
    refine exec_unauthorized hasks ?_
    have hwithin := run_within (exec_steps envs (.admin c)) hself hcircle
    by_contra hin
    rw [hwithin _ (Bool.not_eq_false _ ▸ hin)] at hout
    cases hout
  · exact run_holds (exec_steps envs (.admin c)) hself hcircle htimelock

/-- The deployer grants herself the role again, and the timelock sets the cap. -/
def attempts : List (Tx (SystemCall Unit Unit (Address → Address → ℕ))) :=
  [vaultCall 20 (.grantRole .adminRole 20), vaultCall 30 (.setTvlCap 7)]

theorem attempts_circle : ∀ t ∈ attempts, handedOver.holds (.admin .vault) t.sender = true →
    ∀ a, t.call.gives = some (.admin .vault, a) → handedOver.holds (.admin .vault) a = true := by
  intro t ht hholder a hgives
  obtain rfl | rfl := List.mem_pair.mp ht
  · cases hholder
  · cases hgives

theorem handover_closes_vault :
    (handedOver.holds (.admin .vault) 30 = true ∧ handedOver.holds (.admin .vault) 20 = false) ∧
      (run (System.exec surroundings) handedOver attempts).exec surroundings (vaultCall 20 (.setTvlCap 9)) =
        .error .unauthorizedAccount := by
  obtain ⟨⟨htimelock, hdeployer, -⟩, hrefuses, -⟩ :=
    handover_closes (by decide) runInProcess_constructed (fun hc => by cases hc) attempts_circle
  exact ⟨⟨htimelock, hdeployer⟩, hrefuses (vaultCall 20 (.setTvlCap 9)) hdeployer rfl⟩

/-! ### The gateway -/

/-- The script on the gateway is run by a holder of its `DEFAULT_ADMIN_ROLE`. -/
theorem handOver_gateway {q q' : System U V W} (h : handOver envs tx timelock q .gateway = .ok q') :
    q.holds .defaultAdmin tx.sender = true := by
  obtain ⟨⟨s₁, r₁⟩, h₁, -⟩ := bind_eq_ok.mp h
  obtain ⟨gateway, r, hx, -⟩ := embed_eq_ok.mp (inner_eq_ok.mp h₁)
  have hstep := Gateway.exec_inherited hx (.inl ⟨_, _, rfl⟩)
  generalize gateway.roles = t at hstep
  cases hstep with
  | granted _ hadmin _ => exact hadmin
  | revoked hc _ => cases hc
  | renounced hc => cases hc

theorem deployer_controls (hfresh : timelock ≠ tx.sender) (hrun : runInProcess view envs timelock s tx = .ok s') :
    s.holds .defaultAdmin tx.sender = true := by
  obtain ⟨-, -, hrun⟩ := bind_eq_ok.mp hrun
  unfold deployAndWire at hrun
  rw [List.foldlM_cons] at hrun
  obtain ⟨s₁, h₁, hrun⟩ := bind_eq_ok.mp hrun
  rw [List.foldlM_cons] at hrun
  obtain ⟨s₂, h₂, -⟩ := bind_eq_ok.mp hrun
  rw [← (handOver_ok hfresh h₁).others .defaultAdmin tx.sender fun c _ heq => by cases heq]
  exact handOver_gateway h₂

/-- The deployer takes the role back: from whatever else she may be, and from the timelock. -/
def reclaim (deployer timelock : Address) (b : Block) : List (Tx (SystemCall U V W)) :=
  [.of deployer b (.gateway (.revokeRole .agentRole deployer)),
    .of deployer b (.gateway (.revokeRole .pauserRole deployer)),
    .of deployer b (.gateway (.revokeRole .adminRole timelock)),
    .of deployer b (.gateway (.grantRole .adminRole deployer))]

theorem run_revoke {q : System U V W} {a account : Address} {b : Block} {role : Gateway.Role}
    {txs : List (Tx (SystemCall U V W))} (hne : a ≠ 0) (hadmin : q.gateway.roles .defaultAdminRole a = true) :
    run (System.exec envs) q (.of a b (.gateway (.revokeRole role account)) :: txs) =
      run (System.exec envs) { q with gateway.roles := q.gateway.roles.set role account false } txs := by
  refine congrArg (run (System.exec envs) · txs) (next_of_ok (r := ()) ?_)
  have htx : (Tx.of a b (.gateway (.revokeRole role account)) : Tx (SystemCall U V W)) =
      ⟨b, a, .gateway (.revokeRole role account), hne⟩ := dif_pos hne
  rw [htx]
  refine embed_eq_ok.mpr ⟨_, { events := [] }, ?_, rfl⟩
  refine bind_eq_ok.mpr ⟨_, ?_, rfl⟩
  exact bind_eq_ok.mpr ⟨(), Roles.check_eq_ok.mpr hadmin, rfl⟩

theorem run_grant {q : System U V W} {a : Address} {b : Block} {txs : List (Tx (SystemCall U V W))} (hne : a ≠ 0)
    (hadmin : q.gateway.roles .defaultAdminRole a = true) (hagent : q.gateway.roles .agentRole a = false)
    (hpauser : q.gateway.roles .pauserRole a = false) :
    run (System.exec envs) q (.of a b (.gateway (.grantRole .adminRole a)) :: txs) =
      run (System.exec envs) { q with gateway.roles := q.gateway.roles.set .adminRole a true } txs := by
  refine congrArg (run (System.exec envs) · txs) (next_of_ok (r := ()) ?_)
  have htx : (Tx.of a b (.gateway (.grantRole .adminRole a)) : Tx (SystemCall U V W)) =
      ⟨b, a, .gateway (.grantRole .adminRole a), hne⟩ := dif_pos hne
  rw [htx]
  refine embed_eq_ok.mpr ⟨_, { events := [] }, ?_, rfl⟩
  refine bind_eq_ok.mpr ⟨_, ?_, rfl⟩
  refine bind_eq_ok.mpr ⟨(), Roles.check_eq_ok.mpr hadmin, ?_⟩
  simp [Gateway.grantRole, hagent, hpauser, revertIf, pure, Except.pure]

theorem run_reclaim {q : System U V W} {a : Address} (hne : a ≠ 0) (hother : timelock ≠ a) (b : Block)
    (hadmin : q.holds .defaultAdmin a = true) :
    (run (System.exec envs) q (reclaim a timelock b)).holds (.admin .gateway) a = true ∧
      (run (System.exec envs) q (reclaim a timelock b)).holds (.admin .gateway) timelock = false := by
  have hboss : q.gateway.roles .defaultAdminRole a = true := hadmin
  unfold reclaim
  rw [run_revoke hne hboss, run_revoke hne, run_revoke hne, run_grant hne, run]
  · constructor
    · exact Roles.set_same _ _ _ _
    · have hset := Roles.set_of_ne (((q.gateway.roles.set .agentRole a false).set .pauserRole a false).set
        .adminRole timelock false) true (.inr hother : Gateway.Role.adminRole ≠ .adminRole ∨ timelock ≠ a)
      exact hset.trans (Roles.set_same _ _ _ _)
  all_goals simp [Roles.set, hboss]

/-- **The handover of the gateway is not.** -/
theorem gateway_reclaimed (hfresh : timelock ≠ tx.sender) (hrun : runInProcess view envs timelock s tx = .ok s')
    {txs : List (Tx (SystemCall U V W))} (hquiet : ∀ t ∈ txs, s'.holds .defaultAdmin t.sender = false) (b : Block) :
    (∀ a, (run (System.exec envs) s' txs).holds .defaultAdmin a = s.holds .defaultAdmin a) ∧
    (∀ a, (run (System.exec envs) s' txs).holds (.admin .gateway) a = true →
      s'.holds (.admin .gateway) a = true) ∧
    (run (System.exec envs) s' txs).holds .defaultAdmin tx.sender = true ∧
    (run (System.exec envs) s' (txs ++ reclaim tx.sender timelock b)).holds (.admin .gateway) tx.sender = true ∧
    (run (System.exec envs) s' (txs ++ reclaim tx.sender timelock b)).holds (.admin .gateway) timelock = false := by
  obtain ⟨h, -⟩ := runInProcess_ok hfresh hrun .gateway
  have hsame : ∀ a, s'.holds .defaultAdmin a = s.holds .defaultAdmin a :=
    fun a => h.others _ a fun c _ heq => by cases heq
  have hkept : ∀ a, (run (System.exec envs) s' txs).holds .defaultAdmin a = s.holds .defaultAdmin a := by
    intro a
    rw [run_quiet (exec_steps envs .defaultAdmin) rfl hquiet, hsame]
  have hboss : (run (System.exec envs) s' txs).holds .defaultAdmin tx.sender = true := by
    rw [hkept]
    exact deployer_controls hfresh hrun
  have hback := @run_reclaim _ _ _ envs _ _ _ tx.sender_ne hfresh b hboss
  rw [run_append]
  refine ⟨hkept, ?_, hboss, hback⟩
  exact run_administered (exec_steps envs .defaultAdmin) rfl (exec_steps envs (.admin .gateway)) rfl hquiet

/-- The timelock tries to get rid of the deployer. -/
def dismissal : List (Tx (SystemCall Unit Unit (Address → Address → ℕ))) :=
  [.of 30 (.of 7 300) (.gateway (.revokeRole .defaultAdminRole 20))]

theorem gateway_reclaimed_sample :
    (run (System.exec surroundings) handedOver (dismissal ++ reclaim 20 30 (.of 8 400))).holds (.admin .gateway) 20 =
      true := by
  have hquiet : ∀ t ∈ dismissal, handedOver.holds .defaultAdmin t.sender = false := by
    intro t ht
    obtain rfl := List.mem_singleton.mp ht
    rfl
  exact (gateway_reclaimed (by decide) runInProcess_constructed hquiet (.of 8 400)).2.2.2.1

end RobotMoney.Deploy
