/-
  Exported keys and signing keys.

  The exports hand out BLS keys, which say nothing about the keys they are made
  from, and two kinds of key that do: the raw seeds below a legacy identity, and
  the extended keys of the commitment randomness.  A path that may sign is kept
  apart from these, but for the paths of the seeds and those below an extended
  key.
-/
import Concordium.ExportReleases
import Concordium.Library.KeyTree
import Concordium.PublicKeys

namespace Concordium

open Buffer KeyExport KeyTree Union Wp Runs

set_option synthInstance.maxSize 1000000
set_option synthInstance.maxHeartbeats 100000

/-! ## What is exported -/

/-- A path whose nodes are all hardened. -/
def hardened (nodes : List UInt32) : List UInt32 := nodes.map (· ||| hardenedBit)

/-- A key below a legacy identity: its PRF key, or its IdCredSec. -/
def legacyExportPath (identity : UInt32) (k : ℕ) : List UInt32 :=
  hardened [legacyPurpose, legacyCoinType, 0, 0, identity, legacyLastSubPath k]

/-- A key of the new exports. -/
def newExportPath (o : Owner) (kind : KeyKind) : List UInt32 :=
  hardened (o.basePath ++ kind.nodes o.account)

/-- The owner is on one of the two networks. -/
def OnNetwork (o : Owner) : Prop := ∃ network, coinTypeOfNetwork network = some o.coinType

/-- The keys that the exports may hand out, and in which form. -/
inductive Exportable : Item UInt32 → Prop where
  | legacySeed (identity : UInt32) (k : ℕ) : Exportable (.secret (legacyExportPath identity k))
  | legacyKey (identity : UInt32) (k : ℕ) : Exportable (.digest (legacyExportPath identity k))
  | newKey {o : Owner} {kind : KeyKind} (ho : OnNetwork o) (hk : kind ≠ .commitmentRandomness) :
    Exportable (.digest (newExportPath o kind))
  | commitment {o : Owner} (ho : OnNetwork o) :
    Exportable (.node (newExportPath o .commitmentRandomness))

/-! ## Paths that may sign -/

section Paths
variable [Platform] {dp : DerivationPath} {s : World} {cdata : Bytes}

/-- The path is accepted for a signature or a public key. -/
def SigningPath (dp : DerivationPath) : Prop :=
  ∃ cdata s n t, parseDerivationPath cdata s = .ok n t ∧ t.derivationPath = dp

theorem wp_parseDerivationPath_checked :
    wp (parseDerivationPath cdata) (fun _ t => isExportableSigningPath t.derivationPath = false ∧
      ∃ raw : DerivationPath, t.derivationPath = raw.harden.detectVariant)
      (fun _ _ => True) s := by
  unfold parseDerivationPath
  simp only [setDerivationPath, record, wp_bind, wp_modify]
  refine wp_reads _ (fun r _ => ?_) fun _ _ => trivial
  obtain ⟨consumed, raw⟩ := r
  simp only [wp_bind, wp_modify, wp_throwIf]
  refine ⟨fun _ => trivial, fun hcheck => ?_⟩
  rw [wp_pure]
  exact ⟨eq_false_of_ne_true hcheck, raw, detectVariant_harden raw⟩

theorem SigningPath.checked (h : SigningPath dp) : isExportableSigningPath dp = false ∧
    ∃ raw : DerivationPath, dp = raw.harden.detectVariant := by
  obtain ⟨cdata, s, n, t, hok, rfl⟩ := h
  exact wp_ok wp_parseDerivationPath_checked hok

omit [Platform] in
theorem isExportableSigningPath_commitment {o : Owner}
    (h : dp.nodes = newExportPath o .commitmentRandomness) :
    isExportableSigningPath dp.detectVariant = true := by
  obtain ⟨nodes, variant, hlen⟩ := dp
  obtain rfl : nodes = newExportPath o .commitmentRandomness := h
  have hpurpose : (newPurpose ||| hardenedBit) &&& ~~~hardenedBit = newPurpose := by decide
  have hne : newPurpose ≠ legacyPurpose := by decide
  have hrole : ((5 : UInt32) ||| hardenedBit) &&& ~~~hardenedBit = newCommitmentRandomness := by
    decide
  simp [isExportableSigningPath, DerivationPath.detectVariant, DerivationPath.len,
    DerivationPath.node, newExportPath, hardened, Owner.basePath, KeyKind.nodes, hpurpose, hne,
    hrole, derivationPathNewLen]

/-- The path of a commitment randomness may not sign. -/
theorem SigningPath.ne_commitment (h : SigningPath dp) (o : Owner) :
    dp.nodes ≠ newExportPath o .commitmentRandomness := by
  obtain ⟨hcheck, raw, rfl⟩ := h.checked
  intro hnodes
  rw [detectVariant_nodes] at hnodes
  rw [isExportableSigningPath_commitment hnodes] at hcheck
  cases hcheck

/-- The key at the path is exported, or lies below a key that is. -/
inductive Leaked (nodes : List UInt32) : Prop where
  | seed (identity : UInt32) (k : ℕ) (h : nodes = legacyExportPath identity k)
  | below {o : Owner} (ho : OnNetwork o) (node : UInt32) (rest : List UInt32)
    (h : nodes = newExportPath o .commitmentRandomness ++ node :: rest)

/-- The exports determine a key that may sign if and only if it is a legacy seed
    or lies below the key of a commitment randomness. -/
theorem SigningPath.computable_iff (h : SigningPath dp) :
    Computable Exportable (.secret dp.nodes) ↔ Leaked dp.nodes := by
  rw [computable_secret_iff]
  constructor
  · rintro (hexport | ⟨q, hexport, rest, hbelow⟩)
    · generalize hnodes : dp.nodes = nodes at hexport
      cases hexport with
      | legacySeed identity k => exact .seed identity k rfl
    · cases hexport with
      | @commitment o ho =>
        cases rest with
        | nil => exact absurd (hbelow.symm.trans (List.append_nil _)) (h.ne_commitment o)
        | cons node rest => exact .below ho node rest hbelow.symm
  · rintro (⟨identity, k, hnodes⟩ | @⟨o, ho, node, rest, hnodes⟩)
    · rw [hnodes]
      exact .inl (.legacySeed identity k)
    · exact .inr ⟨_, .commitment ho, hnodes ▸ List.prefix_append _ _⟩

end Paths

/-! ## What an export sends -/

section Sent
variable [Platform]

/-- An item as the device computes it. -/
def itemValue : Item UInt32 → Option Bytes
  | .node path => (Platform.deriveSlip10 path).map fun k => k.1.bytes ++ k.2.bytes
  | .secret path => (Platform.deriveSlip10 path).map fun k => k.1.bytes
  | .digest path => (Platform.deriveSlip10 path).bind fun k =>
    (Platform.blsKeygen k.1).map Buf.bytes

/-- The bytes are exportable items and nothing else, the values one behind the
    other or each behind its length. -/
def SendsItems (data : Bytes) : Prop :=
  ∃ items values, (∀ i ∈ items, Exportable i) ∧
    List.Forall₂ (fun i value => itemValue i = some value) items values ∧
    (data = values.flatten ∨ data = values.flatMap withLength)

variable {s t w : World} {cmd : Command} {o : Owner}

/-- A key of the new exports is an exportable item. -/
theorem exportable_key (ho : OnNetwork o) {kind : KeyKind} {key : Bytes}
    (h : kind.key platformSource o = .ok key) : ∃ i, Exportable i ∧ itemValue i = some key := by
  have hsome {α : Type} {x : Option α} {a : α} (hx : orFailed x = .ok a) : x = some a := by
    cases x with
    | none => cases hx
    | some b => exact congrArg some (Except.ok.inj hx)
  have hnodes : (DerivationPath.ofNodes (o.basePath ++ kind.nodes o.account)
      .invalid).harden.nodes = newExportPath o kind := by
    cases kind <;> rfl
  by_cases hk : kind = .commitmentRandomness
  · subst hk
    obtain ⟨k, hderive, rfl⟩ := Except.map_ok_iff.mp h
    have hvalue := hsome hderive
    rw [hnodes] at hvalue
    exact ⟨_, .commitment ho, by simp [itemValue, hvalue]⟩
  · have hbls : ((platformSource.getBlsPrivateKey (DerivationPath.ofNodes
        (o.basePath ++ kind.nodes o.account) .invalid).harden).map Buf.bytes) = .ok key := by
      cases kind with
      | commitmentRandomness => exact absurd rfl hk
      | _ => exact h
    obtain ⟨k, hderive, rfl⟩ := Except.map_ok_iff.mp hbls
    have hvalue := hsome hderive
    rw [hnodes] at hvalue
    refine ⟨_, .newKey ho hk, ?_⟩
    obtain ⟨pair, hpair, hkey⟩ := Option.bind_eq_some_iff.mp hvalue
    simp [itemValue, hpair, hkey]

/-- The keys of a request are exportable items. -/
theorem ReleasesKeys.sends {p : ExportParams} {data : Bytes} (h : ReleasesKeys p data) :
    SendsItems data := by
  have hrun := h World.start
  unfold exportNewPathPrivateKeysForPurpose at hrun
  cases hcoin : coinTypeOfNetwork p.network with
  | none =>
    rw [hcoin] at hrun
    cases hrun
  | some coinType =>
    cases hkinds : purposeKeys p.purpose with
    | none =>
      rw [hcoin, keysToExport_eq, hkinds] at hrun
      cases hrun
    | some kinds =>
      let o : Owner := ⟨coinType, p.identityProvider, p.identity, p.account⟩
      rw [hcoin, keysToExport_eq, hkinds] at hrun
      change catching (do
        let out ← exportKeys o.basePath o.account 195 (kinds.map KeyKind.keyType) []
        return (swoSuccess, out)) (fun sw => return (sw, [])) World.start = _ at hrun
      rw [exportKeys_eq] at hrun
      cases hkeys : exportedKeys platformSource o 195 0 kinds with
      | error sw =>
        rw [List.length_nil, hkeys] at hrun
        have hne := (exportedKeys_error_ne hkeys).2
        injection hrun with hresult _
        exact absurd (congrArg Prod.fst hresult) hne
      | ok keys =>
        rw [List.length_nil, hkeys] at hrun
        injection hrun with hresult _
        obtain rfl : [] ++ keys.flatMap withLength = data := congrArg Prod.snd hresult
        have hall := exportedKeys_ok hkeys
        have hitems : ∃ items, (∀ i ∈ items, Exportable i) ∧
            List.Forall₂ (fun i value => itemValue i = some value) items keys := by
          clear hkeys hresult hkinds h
          induction hall with
          | nil => exact ⟨[], by simp, .nil⟩
          | cons hkey _ ih =>
            obtain ⟨items, hsub, hvalues⟩ := ih
            obtain ⟨i, hi, hvalue⟩ := exportable_key ⟨_, hcoin⟩ hkey
            exact ⟨i :: items, by simpa using ⟨hi, hsub⟩, .cons hvalue hvalues⟩
        obtain ⟨items, hsub, hvalues⟩ := hitems
        exact ⟨items, keys, hsub, hvalues, .inr (List.nil_append _)⟩

/-! ## Legacy exports -/

/-- The path in use leads to a legacy identity. -/
def OnLegacyIdentity (w : World) : Prop :=
  ∃ identity, w.derivationPath.nodes.take 5 =
    hardened [legacyPurpose, legacyCoinType, 0, 0, identity]

omit [Platform] in
theorem hardened_hardened (nodes : List UInt32) : hardened (hardened nodes) = hardened nodes := by
  simp [hardened, or_or_hardened]

omit [Platform] in
/-- The path of an exported key, from the path of its identity or of the key
    before it. -/
theorem setLastNode_legacy {dp : DerivationPath} {identity : UInt32} {k : ℕ} (hlt : 5 < 8)
    (h : dp.nodes.take 5 = hardened [legacyPurpose, legacyCoinType, 0, 0, identity]) :
    (dp.setLastNode 5 (legacyLastSubPath k) hlt).harden.nodes = legacyExportPath identity k := by
  have hlength : 5 ≤ dp.nodes.length := by
    have := congrArg List.length h
    simp only [List.length_take, hardened, List.length_map, List.length_cons, List.length_nil]
      at this
    omega
  change hardened ((dp.nodes ++ _).take 5 ++ [legacyLastSubPath k]) = _
  rw [List.take_append_of_le_length hlength, h, hardened, List.map_append]
  change hardened (hardened _) ++ _ = _
  rw [hardened_hardened]
  rfl

/-- The loop of a legacy export sends exportable items. -/
theorem wp_exportLegacyKeys {getKey : DerivationPath → App (Buf 32)}
    {item : List UInt32 → Item UInt32}
    (hitem : ∀ identity k, Exportable (item (legacyExportPath identity k)))
    (hget : ∀ path u, wp (getKey path)
      (fun key v => v = u ∧ itemValue (item path.nodes) = some key.bytes) (fun _ _ => True) u)
    (keyCount k : ℕ) (h : OnLegacyIdentity s) :
    wp (exportLegacyKeys getKey keyCount k) (fun data _ => ∃ items values,
      (∀ i ∈ items, Exportable i) ∧
      List.Forall₂ (fun i value => itemValue i = some value) items values ∧
      data = values.flatten) (fun _ _ => True) s := by
  induction keyCount generalizing k s with
  | zero => exact ⟨[], [], by simp, .nil, rfl⟩
  | succ keyCount ih =>
    obtain ⟨identity, hidentity⟩ := h
    have hpath := setLastNode_legacy (k := k) (by decide) hidentity
    unfold exportLegacyKeys
    rw [wp_bind, wp_get, wp_bind, wp_setDerivationPath, wp_bind, wp_get, wp_bind]
    refine wp_mono (fun key v hv => ?_) (fun _ _ _ => trivial) (hget _ _)
    obtain ⟨rfl, hvalue⟩ := hv
    dsimp only at hvalue
    rw [hpath] at hvalue
    rw [wp_bind]
    refine wp_mono (fun data v hv => ?_) (fun _ _ hE => hE) (ih (k + 1) ⟨identity, ?_⟩)
    · obtain ⟨items, values, hsub, hvalues, rfl⟩ := hv
      rw [wp_pure]
      refine ⟨item (legacyExportPath identity k) :: items, key.bytes :: values, ?_,
        .cons hvalue hvalues, by rw [List.flatten_cons]⟩
      intro i hi
      rcases List.mem_cons.mp hi with rfl | hi
      · exact hitem identity k
      · exact hsub i hi
    · dsimp only
      rw [hpath]
      rfl

theorem wp_getPrivateKey_item (path : DerivationPath) (u : World) :
    wp (getPrivateKey path) (fun key v => v = u ∧ itemValue (.secret path.nodes) = some key.bytes)
      (fun _ _ => True) u := by
  unfold getPrivateKey getExtendedPrivateKey
  rw [wp_bind]
  cases hderive : Platform.deriveSlip10 path.nodes with
  | none => trivial
  | some k =>
    change wp (pure k) _ _ _
    rw [wp_pure, wp_pure]
    exact ⟨rfl, by simp [itemValue, hderive]⟩

theorem wp_getBlsPrivateKey_item (path : DerivationPath) (u : World) :
    wp (getBlsPrivateKey path)
      (fun key v => v = u ∧ itemValue (.digest path.nodes) = some key.bytes)
      (fun _ _ => True) u := by
  unfold getBlsPrivateKey
  rw [wp_bind]
  refine wp_mono (fun seed v hv => ?_) (fun _ _ hE => hE) (wp_getPrivateKey_item path u)
  obtain ⟨rfl, hseed⟩ := hv
  obtain ⟨k, hderive, hk⟩ := Option.map_eq_some_iff.mp hseed
  obtain rfl : k.1 = seed := Buf.ext hk
  cases hkey : Platform.blsKeygen k.1 with
  | none => trivial
  | some key => exact ⟨rfl, by simp [itemValue, hderive, hkey]⟩

omit [Platform] in
theorem replies_of_isFlow {events : List Event} (h : ∀ e ∈ events, e.isFlow) :
    replies events = 0 := by
  refine replies_of_isQuiet fun e he => ?_
  have hflow := h e he
  cases e <;> first | rfl | cases hflow

/-- An approved legacy export replies with exportable items, or with an error. -/
theorem wp_exportPrivateKey (h : OnLegacyIdentity s) :
    wp exportPrivateKey (fun _ t => t.latch = none ∧ ∃ data sw, Replied s t data sw ∧
      (data = [] ∨ SendsItems data))
      (fun _ t => ∃ es, t.log = s.log ++ es ∧ replies es = 0) s := by
  have sent {getKey : DerivationPath → App (Buf 32)} {item : List UInt32 → Item UInt32}
      [∀ path, Built .reads (getKey path)]
      (hitem : ∀ identity k, Exportable (item (legacyExportPath identity k)))
      (hget : ∀ path u, wp (getKey path)
        (fun key v => v = u ∧ itemValue (item path.nodes) = some key.bytes) (fun _ _ => True) u)
      (keyCount : ℕ) :
      wp (do sendSuccess (← exportLegacyKeys getKey keyCount 0))
        (fun _ t => t.latch = none ∧ ∃ data sw, Replied s t data sw ∧
          (data = [] ∨ SendsItems data))
        (fun _ t => ∃ es, t.log = s.log ++ es ∧ replies es = 0) s := by
    rw [wp_bind]
    refine wp_mono (fun data t ht => ?_) (fun _ t ht => ?_)
      (wp_and (wp_exportLegacyKeys hitem hget keyCount 0 h) (Frames.frames (R := Inner) s))
    · obtain ⟨⟨items, values, hsub, hvalues, rfl⟩, -, es, hlog, hes⟩ := ht
      rw [wp_sendSuccess]
      refine ⟨rfl, values.flatten, swoSuccess,
        ⟨es, [.released, .drawn (idleScreen t.txState.hash)], ?_, ?_, rfl⟩,
        .inr ⟨items, values, hsub, hvalues, .inl rfl⟩⟩
      · simp [World.toMenu, World.answered, hlog]
      · exact replies_of_isFlow hes
    · obtain ⟨-, -, es, hlog, hes⟩ := ht
      exact ⟨es, hlog, replies_of_isFlow hes⟩
  unfold exportPrivateKey exportPrivateKeySeed exportPrivateKeyBls
  rw [wp_bind, wp_getCtx]
  refine wp_if (fun _ => ?_) fun _ => ?_
  · rw [wp_bind, wp_getCtx]
    exact sent Exportable.legacySeed wp_getPrivateKey_item _
  · rw [wp_bind, wp_getCtx]
    exact sent Exportable.legacyKey wp_getBlsPrivateKey_item _

/-- The review of a legacy export is up. -/
structure LegacyExportUp (w : World) : Prop where
  path : OnLegacyIdentity w
  actions : w.screen.actions = [.exportPrivateKey, .sendUserRejection]

/-- The handler points the path at its identity and draws the review. -/
theorem wp_handleExportPrivateKeyLegacyPath :
    wp (handleExportPrivateKeyLegacyPath cmd)
      (fun _ t => t.replyPending = s.replyPending ∧ LegacyExportUp t) (fun _ _ => True) s := by
  unfold handleExportPrivateKeyLegacyPath
  rw [wp_bind, wp_throwIf]
  refine ⟨fun _ => trivial, fun _ => ?_⟩
  rw [wp_bind, wp_modifyCtx, wp_bind, wp_throwIf]
  refine ⟨fun _ => trivial, fun _ => ?_⟩
  rw [wp_bind, wp_u4be]
  refine ⟨fun _ => ?_, fun _ => trivial⟩
  rw [wp_bind, wp_throwIf]
  refine ⟨fun _ => trivial, fun _ => ?_⟩
  rw [wp_bind, wp_setDerivationPath, wp_bind, wp_getCtx, wp_bind]
  refine wp_reads _ (fun credid _ => ?_) fun _ _ => trivial
  rw [wp_bind]
  refine wp_reads _ (fun digits _ => ?_) fun _ _ => trivial
  rw [wp_bind]
  refine wp_reads _ (fun credid' _ => ?_) fun _ _ => trivial
  cases legacyPurposeText cmd.p1 with
  | none => trivial
  | some texts =>
    rw [wp_bind]
    refine wp_reads _ (fun ctx _ => ?_) fun _ _ => trivial
    rw [wp_bind, wp_setCtx]
    have hup (rows : List Row) (u : World) (hu : u.derivationPath.nodes.take 5 =
        hardened [legacyPurpose, legacyCoinType, 0, 0,
          UInt32.ofNat (beNat ((cmd.data.drop 0).take 4))])
        (hp : u.replyPending = s.replyPending) :
        wp (showScreen rows [.exportPrivateKey, .sendUserRejection])
          (fun _ t => t.replyPending = s.replyPending ∧ LegacyExportUp t) (fun _ _ => True) u := by
      rw [wp_showScreen]
      exact ⟨hp, ⟨_, hu⟩, rfl⟩
    unfold uiExportPrivateKey uiExportReview
    cases (Platform.backend : Backend) with
    | nbgl =>
      rw [wp_bind]
      refine wp_frames (R := Calm) _ (fun _ u hu => ?_) fun _ _ _ => trivial
      rw [wp_bind, wp_getCtx]
      obtain ⟨houtside, hpath, -⟩ := hu
      refine hup _ u ?_ houtside.replyPending
      rw [hpath]
      rfl
    | bagl =>
      rw [wp_bind, wp_getCtx]
      exact hup _ _ rfl rfl

theorem legacyExportRules : FlowRules insExportPrivateKeyLegacy (fun _ _ => True)
    (fun _ => LegacyExportUp) := by
  have opened (cmd : Command) (s : World) (isInitialCall : Bool)
      (hins : cmd.ins = insExportPrivateKeyLegacy) (hp : s.replyPending = true) :
      wp (dispatchInstruction cmd isInitialCall)
        (fun _ t => Flowing insExportPrivateKeyLegacy (fun _ => True) LegacyExportUp t)
        (fun _ _ => True) s := by
    have hdispatch : dispatchInstruction cmd isInitialCall =
        withData cmd (handleExportPrivateKeyLegacyPath cmd) := by
      unfold dispatchInstruction
      rw [hins]
      rfl
    rw [hdispatch]
    refine wp_withData (fun _ => .of_between rfl trivial) fun _ => ?_
    exact wp_mono (fun _ t ht => .of_review (ht.1.trans hp) ht.2) (fun _ _ hE => hE)
      wp_handleExportPrivateKeyLegacyPath
  refine ⟨fun _ _ _ _ _ _ _ => trivial, fun cmd s hins _ hp _ _ _ _ => opened cmd s true hins hp,
    fun _ cmd s hins _ hp _ => opened cmd s false hins hp, fun _ c s hc _ _ hr => ?_⟩
  rw [hr.actions] at hc
  rcases List.mem_pair.mp hc with rfl | rfl
  · change wp (uxRunGuarded exportPrivateKey) _ _ _
    unfold uxRunGuarded
    rw [wp_catching]
    refine wp_mono (fun _ t ht => .of_free ht.1) (fun e t _ => ⟨fun sw _ => ?_, fun _ => trivial⟩)
      (wp_exportPrivateKey hr.path)
    rw [wp_bind, wp_endFlow, wp_uiMenuMain]
    exact .of_free rfl
  · change wp sendUserRejection _ _ _
    rw [wp_sendUserRejection]
    exact .of_free rfl

/-! ## Every run -/

/-- The steps that approve an export. -/
def Callback.approvesExport (c : Callback) : Prop :=
  c = .exportPrivateKey ∨ c = .sendPrivateKeysNewPath

/-- In every run in which reviews are answered once, approving an export sends
    exportable items, or nothing. -/
theorem export_sends_items {inputs : List Input} {c : Callback}
    (hgate : Along Concordium.step Answers World.start inputs)
    (hrun : runInputs World.start inputs = some w) (hp : w.replyPending = true)
    (hc : c.approvesExport) (hmem : c ∈ w.screen.actions)
    (hs : step w (.activate c) = some t) :
    ∃ data sw, Replied w t data sw ∧ (data = [] ∨ SendsItems data) := by
  rcases hc with rfl | rfl
  · have hlatch := (Sound.run hgate hrun).exports hp hmem
    have hup := (legacyExportRules.run hgate hrun).review hlatch hp
    refine of_step (P := fun u => ∃ data sw, Replied w u data sw ∧
      (data = [] ∨ SendsItems data)) hs ?_
    change wp (activate .exportPrivateKey) _ _ w
    rw [wp_activate]
    change wp (uxRunGuarded exportPrivateKey) _ _ _
    unfold uxRunGuarded
    rw [wp_catching]
    have hactivated : OnLegacyIdentity (w.activated .exportPrivateKey) := hup.path
    refine wp_mono (fun _ u hu => ?_) (fun e u hu => ⟨fun sw _ => ?_, fun _ => trivial⟩)
      (wp_exportPrivateKey hactivated)
    · obtain ⟨-, data, sw, hreply, hdata⟩ := hu
      exact ⟨data, sw, hreply.of_log [.activated .exportPrivateKey] rfl rfl, hdata⟩
    · obtain ⟨es, hlog, hes⟩ := hu
      rw [wp_bind, wp_endFlow, wp_uiMenuMain]
      refine ⟨[], sw, ⟨.activated .exportPrivateKey :: (es ++ [.released]),
        [.released, .drawn (idleScreen u.txState.hash)], ?_, ?_, rfl⟩, .inl rfl⟩
      · simp [World.toMenu, World.activated, hlog]
      · change replies ([.activated .exportPrivateKey] ++ (es ++ [.released])) = 0
        rw [replies, List.countP_append, List.countP_append, ← replies, ← replies, hes]
        rfl
  · obtain ⟨v, data, sw, hv, hreply, hdata⟩ := step_sendPrivateKeysNewPath hmem
      (wp_sendPrivateKeysNewPath_released (p := (w.global.view ExportPrivateKeyContext).params)
        fun _ => rfl)
    obtain rfl := Option.some.inj (hs.symm.trans hv)
    exact ⟨data, sw, hreply, hdata.imp_right ReleasesKeys.sends⟩

/-- Approving an export sends exportable items or nothing, in every run in which
    reviews are answered once; and all the exportable items together determine a
    key that may sign, however keys are derived, if and only if it is a legacy
    seed or lies below the key of a commitment randomness. -/
theorem signing_keys_separate {inputs : List Input} {c : Callback}
    (hgate : Along Concordium.step Answers World.start inputs)
    (hrun : runInputs World.start inputs = some w) (hp : w.replyPending = true)
    (hc : c.approvesExport) (hmem : c ∈ w.screen.actions)
    (hs : step w (.activate c) = some t) :
    (∃ data sw, Replied w t data sw ∧ (data = [] ∨ SendsItems data)) ∧
    ∀ dp, SigningPath dp → (Determined Exportable (.secret dp.nodes) ↔ Leaked dp.nodes) :=
  ⟨export_sends_items hgate hrun hp hc hmem hs,
    fun _ hdp => computable_iff_determined.symm.trans hdp.computable_iff⟩

end Sent

/-- Asks for the seeds of an identity. -/
def legacySeedExport (identity : UInt32) : Command where
  ins := insExportPrivateKeyLegacy
  p1 := p1LegacyPrfKeyAndIdCredSec
  p2 := p2LegacySeed
  data := toBe 4 identity.toNat
  lc_le := by simp

/-- A path of seven nodes, below the commitment randomness of account 3. -/
def belowCommitment : Bytes := 7 :: [44, 919, 1, 2, 5, 3, 0].flatMap (toBe 4)

/-- The seeds of an identity are sent, and a path that is accepted for signing
    lies below an exported key. -/
theorem legacy_seeds_sent :
    letI : Platform := device .nbgl
    ∃ w t data sw dp, runInputs World.start [.apdu (legacySeedExport 3)] = some w ∧
      step w (.activate .exportPrivateKey) = some t ∧ Replied w t data sw ∧
      (data = [] ∨ SendsItems data) ∧ SigningPath dp ∧
      Determined Exportable (.secret dp.nodes) := by
  let : Platform := device .nbgl
  have hrun : (runInputs World.start [.apdu (legacySeedExport 3)]).any (fun w =>
      decide (w.replyPending = true ∧ .exportPrivateKey ∈ w.screen.actions) &&
      (step w (.activate .exportPrivateKey)).isSome) = true := by
    decide +kernel
  obtain ⟨w, hw, hrun⟩ := (Option.any_eq_true _ _).mp hrun
  obtain ⟨hstate, hstep⟩ := (Bool.and_eq_true _ _).mp hrun
  obtain ⟨hp, hmem⟩ := of_decide_eq_true hstate
  obtain ⟨t, ht⟩ := Option.isSome_iff_exists.mp hstep
  have hgate : Along Concordium.step Answers World.start [.apdu (legacySeedExport 3)] := by
    decide +kernel
  obtain ⟨⟨data, sw, hreply, hdata⟩, hpaths⟩ :=
    signing_keys_separate hgate hw hp (.inl rfl) hmem ht
  have hpath : ∃ dp, SigningPath dp ∧ dp.nodes = newExportPath ⟨newMainnetCoinType, 1, 2, 3⟩
      .commitmentRandomness ++ [0 ||| hardenedBit] :=
    ⟨_, ⟨belowCommitment, World.start, _, _, rfl, rfl⟩, rfl⟩
  obtain ⟨dp, hdp, hnodes⟩ := hpath
  exact ⟨w, t, data, sw, dp, hw, ht, hreply, hdata, hdp,
    (hpaths dp hdp).mpr (.below ⟨p2Mainnet, rfl⟩ _ [] hnodes)⟩

end Concordium
