import RobotMoney.Client.Honest

/-!
# The roles of an account, as the client prints them

`rmpc get-roles` reads, for each of the four roles of the gateway, its hash, and with the hash that was read
whether the account has it.  A row of which the hash is not read is left as it was, and the error names the row;
so what is printed is honest, whatever fails (`readRoles_honest`).
-/

namespace RobotMoney.Client

open RobotMoney.Lib

/-! ### The command -/

/-- What the node answers; the getter of a role gives bytes. -/
structure RolesRpc where
  chainId : Result ℕ
  blockNumber : Result ℕ
  ethCallRole : (gateway : Address) → (blockTag : String) → (role : String) → Result (List UInt8)
  callHasRole : (gateway : Address) → (blockTag : String) → (role : List UInt8) → (account : Address) →
    Except String Bool

structure RoleEntry where
  name : String := ""
  hash : String := ""
  hasRole : Bool := false

structure RolesData where
  address : String := ""
  roles : List RoleEntry := []

/-- `ROLES` -/
def roles : List String := ["DEFAULT_ADMIN_ROLE", "ADMIN_ROLE", "PAUSER_ROLE", "AGENT_ROLE"]

/-- `format!("{:#x}", hash)` -/
def hexBytes (bytes : List UInt8) : String := "0x" ++ String.ofList (bytes.flatMap fun b => hexWord 2 b.toNat)

/-- `b.data_mut().roles[idx].hash = ..` -/
def RolesData.setHash (idx : ℕ) (hash : List UInt8) (d : RolesData) : RolesData :=
  { d with roles := d.roles.modify idx fun e => { e with hash := hexBytes hash } }

/-- `b.data_mut().roles[idx].has_role = ..` -/
def RolesData.setHasRole (idx : ℕ) (v : Bool) (d : RolesData) : RolesData :=
  { d with roles := d.roles.modify idx fun e => { e with hasRole := v } }

/-- `read_role_hash` -/
def readRoleHash (rpc : RolesRpc) (gateway : Address) (tag role : String) : Except String (List UInt8) :=
  if role ∈ roles then do
    let out ← (rpc.ethCallRole gateway tag role).mapError fun e => "eth_call failed: " ++ e.display
    if out.length ≠ 32 then .error ("expected 32 bytes, got " ++ toString out.length) else pure out
  else .error ("unknown role getter: " ++ role)

/-- The body of the loop: the role with the index `idx`. -/
def readRole (rpc : RolesRpc) (gateway target : Address) (tag : String) (b : PartialBuilder RolesData) :
    String × ℕ → PartialBuilder RolesData
  | (name, idx) =>
    let hash := readRoleHash rpc gateway tag name
    let b := b.read ("role." ++ name ++ ".hash") hash (RolesData.setHash idx)
    match hash with
    | .ok hash =>
      b.read ("role." ++ name ++ ".has") (rpc.callHasRole gateway tag hash target) (RolesData.setHasRole idx)
    | .error _ => b

/-- `read_roles` -/
def readRoles (rpc : RolesRpc) (gateway target : Address) : Result (Envelope RolesData) := do
  let chainId ← rpc.chainId
  let blockNumber ← rpc.blockNumber
  let tag := blockTag blockNumber
  let b := PartialBuilder.new chainId blockNumber
    { address := lowerHex target, roles := roles.map fun name => { name } }
  pure (roles.zipIdx.foldl (readRole rpc gateway target tag) b).finish

/-! ### The roles in the pinned block -/

/-- The hashes of the roles, and who has them. -/
structure RolesState where
  roleHash : String → List UInt8
  hasRole : List UInt8 → Address → Bool

/-- The answers are true, as far as there are any. -/
structure RolesRpc.ShowsRoles (rpc : RolesRpc) (gateway target : Address) (tag : String) (s : RolesState) : Prop where
  roleHash : ∀ name, Tells (rpc.ethCallRole gateway tag name) (s.roleHash name)
  hasRole : ∀ role, Tells (rpc.callHasRole gateway tag role target) (s.hasRole role target)

/-- What an envelope shows of the row `idx`, the role `name`: the errors of a row stand for what is not read
of it. -/
structure HonestRow (target : Address) (s : RolesState) (name : String) (idx : ℕ) (b : PartialBuilder RolesData) :
    Prop where
  hash : b.Honest (fun d => d.roles[idx]?.map RoleEntry.hash) (some (hexBytes (s.roleHash name)))
    ["role." ++ name ++ ".hash"]
  hasRole : b.Honest (fun d => d.roles[idx]?.map RoleEntry.hasRole) (some (s.hasRole (s.roleHash name) target))
    ["role." ++ name ++ ".has", "role." ++ name ++ ".hash"]

section Rows

open PartialBuilder

variable {rpc : RolesRpc} {gateway target : Address} {tag name : String} {s : RolesState} {idx j : ℕ}
  {b : PartialBuilder RolesData}

theorem readRoleHash_tells (h : rpc.ShowsRoles gateway target tag s) (name : String) :
    Tells (readRoleHash rpc gateway tag name) (s.roleHash name) := by
  intro hash hread
  unfold readRoleHash at hread
  split at hread
  · simp only [bind_eq_ok] at hread
    obtain ⟨out, hout, hread⟩ := hread
    split at hread
    · cases hread
    · cases hread
      exact (h.roleHash name).mapError _ _ hout
  · cases hread

theorem setHash_row (hj : idx ≠ j) {hash : List UInt8} (d : RolesData) :
    (d.setHash idx hash).roles[j]? = d.roles[j]? :=
  List.getElem?_modify_ne _ _ hj

theorem setHasRole_row (hj : idx ≠ j) {v : Bool} (d : RolesData) :
    (d.setHasRole idx v).roles[j]? = d.roles[j]? :=
  List.getElem?_modify_ne _ _ hj

theorem setHash_hash {hash : List UInt8} {d : RolesData} (hidx : idx < d.roles.length) :
    (d.setHash idx hash).roles[idx]?.map RoleEntry.hash = some (hexBytes hash) := by
  simp [RolesData.setHash, List.getElem?_eq_getElem hidx]

theorem setHasRole_hasRole {v : Bool} {d : RolesData} (hidx : idx < d.roles.length) :
    (d.setHasRole idx v).roles[idx]?.map RoleEntry.hasRole = some v := by
  simp [RolesData.setHasRole, List.getElem?_eq_getElem hidx]

/-- What a change of one row does not show in. -/
theorem map_modify_of_keeps {α β : Type} {f : α → α} {view : α → β} (hview : ∀ e, view (f e) = view e) {l : List α} :
    (l.modify idx f).map view = l.map view := by
  refine List.ext_getElem? fun i => ?_
  simp only [List.getElem?_map, List.getElem?_modify, Option.map_eq_map, Option.map_map]
  refine Option.map_congr fun e _ => ?_
  simp only [Function.comp_apply]
  split
  · exact hview e
  · rfl

theorem setHash_map {β : Type} (view : RoleEntry → β) (hview : ∀ hash e, view { e with hash := hash } = view e)
    {hash : List UInt8} (d : RolesData) : (d.setHash idx hash).roles.map view = d.roles.map view :=
  map_modify_of_keeps (hview (hexBytes hash))

theorem setHasRole_map {β : Type} (view : RoleEntry → β) (hview : ∀ v e, view { e with hasRole := v } = view e)
    {v : Bool} (d : RolesData) : (d.setHasRole idx v).roles.map view = d.roles.map view :=
  map_modify_of_keeps (hview v)

/-- The row, when its hash is read. -/
theorem readRole_ok {hash : List UInt8} (h : readRoleHash rpc gateway tag name = .ok hash) :
    readRole rpc gateway target tag b (name, idx) =
      (b.read ("role." ++ name ++ ".hash") (.ok hash) (RolesData.setHash idx)).read ("role." ++ name ++ ".has")
        (rpc.callHasRole gateway tag hash target) (RolesData.setHasRole idx) := by
  simp only [readRole, h]

/-- And when it is not. -/
theorem readRole_error {e : String} (h : readRoleHash rpc gateway tag name = .error e) :
    readRole rpc gateway target tag b (name, idx) =
      b.read ("role." ++ name ++ ".hash") (.error e) (RolesData.setHash idx) := by
  simp only [readRole, h]

/-- What shows neither the hash nor the membership of the row. -/
theorem honest_readRole {β : Type} {view : RolesData → β} {a : β} {names : List String}
    (h : b.Honest view a names) (hhash : ∀ hash d, view (d.setHash idx hash) = view d)
    (hhas : ∀ v d, view (d.setHasRole idx v) = view d) :
    (readRole rpc gateway target tag b (name, idx)).Honest view a names := by
  cases hread : readRoleHash rpc gateway tag name with
  | ok hash =>
    rw [readRole_ok hread]
    exact (Honest.read h hhash).read hhas
  | error e =>
    rw [readRole_error hread]
    exact Honest.read h hhash

/-- **One row** is read. -/
theorem readRole_row (h : rpc.ShowsRoles gateway target tag s) (hidx : idx < b.data.roles.length) :
    HonestRow target s name idx (readRole rpc gateway target tag b (name, idx)) := by
  rcases (readRoleHash_tells h name).cases with hread | ⟨e, hread⟩
  · rw [readRole_ok hread]
    constructor
    · refine (honest_read tells_ok (setHash_hash hidx)).read ?_
      intro v d
      have hkept : (d.setHasRole idx v).roles.map RoleEntry.hash = d.roles.map RoleEntry.hash :=
        setHasRole_map RoleEntry.hash (fun _ _ => rfl) d
      simpa only [List.getElem?_map] using congrArg (fun l : List String => l[idx]?) hkept
    · refine honest_read (h.hasRole _) (setHasRole_hasRole ?_) (by simp)
      simpa [PartialBuilder.read, PartialBuilder.dataMut, RolesData.setHash] using hidx
  · rw [readRole_error hread]
    have hnamed : (b.read ("role." ++ name ++ ".hash") (.error e) (RolesData.setHash idx)).Named
        ["role." ++ name ++ ".hash"] := named_read.mpr (.inr ⟨by simp, fails_error⟩)
    obtain ⟨x, hx, hfield⟩ := hnamed
    exact ⟨.inr ⟨x, hx, hfield⟩, .inr ⟨x, hx, List.mem_cons_of_mem _ hfield⟩⟩

/-- The rows before it stay. -/
theorem HonestRow.readRole {x : String × ℕ} (h : HonestRow target s name j b) (hj : x.2 ≠ j) :
    HonestRow target s name j (readRole rpc gateway target tag b x) := by
  have hview : ∀ {β : Type} (view : RoleEntry → β),
      (∀ hash d, (RolesData.setHash x.2 hash d).roles[j]?.map view = d.roles[j]?.map view) ∧
        ∀ v d, (RolesData.setHasRole x.2 v d).roles[j]?.map view = d.roles[j]?.map view := fun view =>
    ⟨fun hash d => congrArg (Option.map view) (setHash_row hj d),
      fun v d => congrArg (Option.map view) (setHasRole_row hj d)⟩
  exact ⟨honest_readRole h.hash (hview _).1 (hview _).2, honest_readRole h.hasRole (hview _).1 (hview _).2⟩

theorem readRole_length {x : String × ℕ} :
    (readRole rpc gateway target tag b x).data.roles.length = b.data.roles.length := by
  have h : (readRole rpc gateway target tag b x).Honest (fun d => d.roles.length) b.data.roles.length [] :=
    honest_readRole (.inl rfl) (fun _ _ => List.length_modify _ _ _) fun _ _ => List.length_modify _ _ _
  exact h.resolve_right not_named_nil

theorem foldl_readRole_keeps {rows : List (String × ℕ)} (h : HonestRow target s name j b)
    (hj : j ∉ rows.map Prod.snd) :
    HonestRow target s name j (rows.foldl (readRole rpc gateway target tag) b) := by
  induction rows generalizing b with
  | nil => exact h
  | cons x rows ih =>
    rw [List.map_cons, List.mem_cons, not_or] at hj
    exact ih (h.readRole (Ne.symm hj.1)) hj.2

/-- **All rows** are read, each once. -/
theorem foldl_readRole_rows (h : rpc.ShowsRoles gateway target tag s) {rows : List (String × ℕ)}
    (hnodup : (rows.map Prod.snd).Nodup) (hlt : ∀ x ∈ rows, x.2 < b.data.roles.length) :
    ∀ x ∈ rows, HonestRow target s x.1 x.2 (rows.foldl (readRole rpc gateway target tag) b) := by
  induction rows generalizing b with
  | nil => exact fun _ hx => absurd hx List.not_mem_nil
  | cons x rows ih =>
    rw [List.map_cons, List.nodup_cons] at hnodup
    rw [List.forall_mem_cons] at hlt ⊢
    obtain ⟨name, idx⟩ := x
    rw [List.foldl_cons]
    refine ⟨foldl_readRole_keeps (readRole_row h hlt.1) hnodup.1, ih hnodup.2 fun y hy => ?_⟩
    rw [readRole_length]
    exact hlt.2 y hy

/-- What no row shows. -/
theorem foldl_readRole_honest {β : Type} (view : RolesData → β) {a : β} {names : List String}
    {rows : List (String × ℕ)} (h : b.Honest view a names)
    (hhash : ∀ idx hash d, view (RolesData.setHash idx hash d) = view d)
    (hhas : ∀ idx v d, view (RolesData.setHasRole idx v d) = view d) :
    (rows.foldl (readRole rpc gateway target tag) b).Honest view a names := by
  induction rows generalizing b with
  | nil => exact h
  | cons x rows ih => exact ih (honest_readRole h (hhash x.2) (hhas x.2))

theorem foldl_readRole_blockNumber {rows : List (String × ℕ)} :
    (rows.foldl (readRole rpc gateway target tag) b).blockNumber = b.blockNumber := by
  induction rows generalizing b with
  | nil => rfl
  | cons x rows ih =>
    rw [List.foldl_cons, ih]
    cases hread : readRoleHash rpc gateway tag x.1 with
    | ok hash => exact (congrArg PartialBuilder.blockNumber (readRole_ok hread)).trans (by simp)
    | error e => exact (congrArg PartialBuilder.blockNumber (readRole_error hread)).trans (by simp)

end Rows

/-- An envelope of the roles, field by field. -/
structure HonestRoles (out : Envelope RolesData) (target : Address) (s : RolesState) : Prop where
  address : out.Honest RolesData.address (lowerHex target) ["address"]
  names : out.Honest (fun d => d.roles.map RoleEntry.name) roles ["roles"]
  hash : ∀ name idx, (name, idx) ∈ roles.zipIdx →
    out.Honest (fun d => d.roles[idx]?.map RoleEntry.hash) (some (hexBytes (s.roleHash name)))
      ["role." ++ name ++ ".hash"]
  hasRole : ∀ name idx, (name, idx) ∈ roles.zipIdx →
    out.Honest (fun d => d.roles[idx]?.map RoleEntry.hasRole) (some (s.hasRole (s.roleHash name) target))
      ["role." ++ name ++ ".has", "role." ++ name ++ ".hash"]

/-- **The roles of an account.**  What is printed is honest. -/
theorem readRoles_honest {rpc : RolesRpc} {gateway target : Address} {s : RolesState} {out : Envelope RolesData}
    (h : readRoles rpc gateway target = .ok out)
    (hshows : rpc.ShowsRoles gateway target (blockTag out.blockNumber) s) : HonestRoles out target s := by
  simp only [readRoles, bind_eq_ok, pure_eq_ok] at h
  obtain ⟨chainId, -, n, -, rfl⟩ := h
  rw [PartialBuilder.finish_blockNumber, foldl_readRole_blockNumber, PartialBuilder.new_blockNumber] at hshows
  have hrows := foldl_readRole_rows (b := .new chainId n
    { address := lowerHex target, roles := roles.map fun name => { name } }) hshows
    (show (roles.zipIdx.map Prod.snd).Nodup by decide) (show ∀ x ∈ roles.zipIdx, x.2 < 4 by decide)
  exact
    { address := foldl_readRole_honest RolesData.address (.inl rfl) (fun _ _ _ => rfl) fun _ _ _ => rfl
      names := foldl_readRole_honest (fun d => d.roles.map RoleEntry.name) (.inl rfl)
        (fun _ _ => setHash_map RoleEntry.name fun _ _ => rfl)
        fun _ _ => setHasRole_map RoleEntry.name fun _ _ => rfl
      hash := fun name idx hmem => (hrows (name, idx) hmem).hash
      hasRole := fun name idx hmem => (hrows (name, idx) hmem).hasRole }

end RobotMoney.Client
