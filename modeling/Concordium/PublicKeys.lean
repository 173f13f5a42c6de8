/-
  What the review of GET_PUBLIC_KEY says of the key.

  The identity row is made from some nodes of the path.  Only BAGL shows the
  key itself, which determines the path.
-/
import Concordium.Hex
import Concordium.Library.Relate
import Concordium.PathTexts

namespace Concordium

open Buffer Wp

set_option synthInstance.maxSize 1000000
set_option synthInstance.maxHeartbeats 100000

/-! ## Paths on the wire -/

/-- A path as a command carries it. -/
def wirePath (nodes : List UInt32) : Bytes :=
  UInt8.ofNat nodes.length :: nodes.flatMap fun node => toBe 4 node.toNat

theorem wireNodes_flatMap (nodes : List UInt32) :
    wireNodes (nodes.flatMap fun node => toBe 4 node.toNat) nodes.length = nodes := by
  induction nodes with
  | nil => rfl
  | cons node rest ih =>
    have hlen : (toBe 4 node.toNat).length = 4 := toBe_length _ _
    rw [List.flatMap_cons, List.length_cons, wireNodes, List.take_left' hlen, List.drop_left' hlen,
      ih, beNat_toBe, Nat.mod_eq_of_lt (lt_of_lt_of_le node.toNat_lt (by decide)),
      UInt32.ofNat_toNat]

theorem wirePath_length (nodes : List UInt32) : (wirePath nodes).length = 1 + nodes.length * 4 := by
  have hflat : ∀ nodes : List UInt32,
      (nodes.flatMap fun node => toBe 4 node.toNat).length = nodes.length * 4 := by
    intro nodes
    induction nodes with
    | nil => rfl
    | cons node rest ih =>
      rw [List.flatMap_cons, List.length_append, ih, toBe_length, List.length_cons]
      omega
  rw [wirePath, List.length_cons, hflat, Nat.add_comm]

/-- The nodes a command carries. -/
def sentNodes (cdata : Bytes) : List UInt32 := wireNodes (cdata.drop 1) (cdata.getD 0 0).toNat

/-- The path of some nodes, as the app derives keys at it. -/
def keyPath (nodes : List UInt32) : DerivationPath :=
  (DerivationPath.ofNodes nodes .full).detectVariant.harden

theorem sentNodes_wirePath {nodes : List UInt32} (h : nodes.length ≤ derivationPathNodesMax) :
    sentNodes (wirePath nodes) = nodes := by
  have hlen : (UInt8.ofNat nodes.length).toNat = nodes.length := by
    rw [UInt8.toNat_ofNat']
    exact Nat.mod_eq_of_lt (lt_of_le_of_lt h (by decide))
  show wireNodes _ (UInt8.ofNat nodes.length).toNat = nodes
  rw [hlen]
  exact wireNodes_flatMap nodes

/-- `parse_derivation_path` takes the path. -/
structure WellSent (cdata : Bytes) : Prop where
  nonempty : ¬ cdata.length < 1
  depth : ¬ derivationPathNodesMax < (cdata.getD 0 0).toNat
  length : ¬ cdata.length < 1 + (cdata.getD 0 0).toNat * 4
  signing : isExportableSigningPath (keyPath (sentNodes cdata)) = false

section Parse
variable {s : World} {cdata : Bytes}

theorem wp_parseDerivationPath_sent {Q : ℕ → World → Prop} {E : Exception → World → Prop}
    (h : WellSent cdata → ∀ n events, replies events = 0 →
      Q n { s with derivationPath := keyPath (sentNodes cdata), log := s.log ++ events })
    (hno : ¬ WellSent cdata → ∀ e t, E e t) : wp (parseDerivationPath cdata) Q E s := by
  unfold parseDerivationPath parseDerivationPathFromBuffer
  simp only [wp_bind, wp_setDerivationPath, wp_throwIf, wp_u8, wp_pure, wp_record]
  refine ⟨fun hn => hno (fun hw => hw.nonempty hn) _ _, fun hnonempty =>
    ⟨fun _ => ⟨fun hn => hno (fun hw => hw.depth hn) _ _, fun hdepth =>
      ⟨fun hn => hno (fun hw => hw.length hn) _ _, fun hlength =>
        ⟨fun hn => hno (fun hw => ?_) _ _, fun hsigning => ?_⟩⟩⟩, fun hn => ?_⟩⟩
  · exact absurd (hw.signing.symm.trans hn) Bool.false_ne_true
  · have hQ := h ⟨hnonempty, hdepth, hlength, Bool.eq_false_iff.mpr hsigning⟩
      (1 + (cdata.getD 0 0).toNat * 4)
      [.path .init, .path (keyPath (sentNodes cdata)), .parsed (keyPath (sentNodes cdata))] rfl
    simp only [List.append_assoc]
    exact hQ
  · exact absurd (by omega) hn

end Parse

/-! ## The identity row -/

section Identity
variable {dp : DerivationPath} {s : World}

instance {c : Prop} [Decidable c] {sw : UInt16} : Stateless (throwIf c sw) := by
  unfold throwIf; infer_instance

instance : Stateless (publicKeyDisplay dp) := by
  unfold publicKeyDisplay governanceLabel pathDisplayNew pathDisplayLegacy binToDec numberToText
  infer_instance

/-- A governance key shows its level only. -/
theorem publicKeyDisplay_five (hlen : dp.len = 5) (hpurpose : dp.node 0 = legacyPurpose) :
    publicKeyDisplay dp =
      if dp.node 2 = 1 then governanceLabel (dp.node 3)
      else throw (.statusWord errorInvalidPath) := by
  unfold publicKeyDisplay throwIf
  by_cases hgov : dp.node 2 = 1
  · simp only [hlen, hpurpose, hgov, ne_eq, not_true_eq_false, and_self, and_false, if_true,
      if_false]
    rfl
  · simp only [hlen, hpurpose, hgov, ne_eq, not_false_eq_true, and_self, if_true, if_false]
    rfl

theorem publicKeyDisplay_new (hpurpose : dp.node 0 = newPurpose) (hvariant : dp.variant = .new) :
    publicKeyDisplay dp = pathDisplayNew 21 (dp.node 2) (dp.node 3) (dp.node 4) := by
  have hlegacy : ¬ newPurpose = legacyPurpose := by decide
  unfold publicKeyDisplay throwIf
  simp only [hpurpose, hlegacy, hvariant, false_and, and_false, if_false, if_true]
  rfl

theorem publicKeyDisplay_legacy (hlen : dp.len ≠ 5) (hvariant : dp.variant ≠ .new) :
    publicKeyDisplay dp = pathDisplayLegacy 21 (dp.node 4) (dp.node 6) := by
  unfold publicKeyDisplay throwIf
  simp only [hlen, hvariant, false_and, if_false]
  rfl

/-- The text ends where its buffer's text ends. -/
theorem wp_publicKeyDisplay :
    wp (publicKeyDisplay dp) (fun text _ => ∃ t, text = t ++ [0] ∧ 0 ∉ t) (fun _ _ => True) s := by
  have hdecimal : ∀ n, 0 ∉ decimal n := zero_not_mem_decimal
  have hslash : (0 : UInt8) ∉ ascii "/" := by decide
  unfold publicKeyDisplay
  rw [wp_bind, wp_throwIf]
  refine ⟨fun _ => trivial, fun _ => wp_if (fun _ => ?_) fun _ => wp_if (fun _ => ?_) fun _ => ?_⟩
  · unfold governanceLabel
    refine wp_if (fun _ => ⟨_, rfl, by decide⟩) fun _ => wp_if (fun _ => ⟨_, rfl, by decide⟩)
      fun _ => wp_if (fun _ => ⟨_, rfl, by decide⟩) fun _ => trivial
  · simp only [pathDisplayNew, binToDec, numberToText, wp_bind, wp_throwIf, wp_pure, implies_true,
      true_and]
    intros
    refine ⟨_, (List.append_assoc _ _ _).symm, ?_⟩
    simp only [List.mem_append, hdecimal, hslash, or_false, not_false_iff]
  · simp only [pathDisplayLegacy, binToDec, numberToText, wp_bind, wp_throwIf, wp_pure,
      implies_true, true_and]
    intros
    refine ⟨_, (List.append_assoc _ _ _).symm, ?_⟩
    simp only [List.mem_append, hdecimal, hslash, or_false, not_false_iff]

end Identity

/-! ## The review -/

section Review
variable [Platform] {w w' : World} {cmd : Command} {s : World} {dp : DerivationPath}
  {text publicKey : Bytes}

omit [Platform] in
instance {α : Type} {result : Option α} : Stateless (ensureNoError result) := by
  cases result <;> unfold ensureNoError <;> infer_instance

instance : Stateless (getPublicKey dp) := by
  unfold getPublicKey getPrivateKey getExtendedPrivateKey; infer_instance

/-- The rows of a review: only BAGL has the key. -/
def keyReviewRows (text publicKey : Bytes) : List Row :=
  match Platform.backend with
  | .nbgl => [line "Public Key" "", row "Identity" text, ⟨ascii "Export public key", []⟩]
  | .bagl => [row "Identity" text, row "Public key" (paginatedHex publicKey)]

/-- A path comes to a review with a text and a key. -/
structure Reviewable (dp : DerivationPath) (text publicKey : Bytes) : Prop where
  displayed : ∀ s, publicKeyDisplay dp.unharden s = .ok (text ++ [0]) s
  plain : 0 ∉ text
  fits : 0 + (text ++ [0]).length ≤ 21
  key : ∀ s, getPublicKey dp s = .ok publicKey s

/-- The app reviews the key at a path. -/
structure KeyUnderReview (dp : DerivationPath) (text publicKey : Bytes) (t : World) : Prop where
  rows : t.screen.rows = keyReviewRows text publicKey
  path : t.reviewedPath = dp

/-- The text, the key and the review. -/
theorem wp_reviewPublicKey {u : World} {Q : Unit → World → Prop} {E : Exception → World → Prop}
    (hpath : u.derivationPath = dp) (hreviewed : u.reviewedPath = dp)
    (h : ∀ text publicKey, Reviewable dp text publicKey → ∀ t, KeyUnderReview dp text publicKey t →
      t.replyPending = u.replyPending → Q () t)
    (hno : (∀ text publicKey, ¬ Reviewable dp text publicKey) → ∀ e t, E e t) :
    wp (do
      setDerivationPath (← get).derivationPath.unharden
      let text ← publicKeyDisplay (← get).derivationPath
      setDerivationPath (← get).derivationPath.harden
      let publicKey ← getPublicKey (← get).reviewedPath
      let ctx ← getCtx ExportPublicKeyContext
      let display ← memmove ctx.display 0 text
      let publicKeyText ← toPaginatedHex publicKey ctx.publicKey
      setCtx { ctx with display := display, publicKey := publicKeyText }
      modify fun w => { w with publicKeyReviewPending := true }
      uiGeneratePubkey) Q E u := by
  simp only [wp_bind, wp_get, wp_setDerivationPath, hpath]
  have hends : wp (publicKeyDisplay dp.unharden) (fun text _ => ∃ t, text = t ++ [0] ∧ 0 ∉ t)
    (fun _ _ => True) u := wp_publicKeyDisplay
  refine wp_stateless (fun text htext => ?_) fun e herr => hno (fun text key hr => ?_) _ _
  swap
  · cases (herr u).symm.trans (hr.displayed u)
  obtain ⟨text, rfl, hplain⟩ := wp_ok hends (htext u)
  simp only [wp_bind, wp_get, wp_setDerivationPath, hreviewed]
  refine wp_stateless (fun publicKey hkey => ?_) fun e herr => hno (fun text key hr => ?_) _ _
  swap
  · cases (herr u).symm.trans (hr.key u)
  have hlen : publicKey.length = 32 := (wp_ok getPublicKey_length (hkey u)).2
  simp only [wp_bind, wp_getCtx, wp_memmove]
  refine ⟨fun hfits => ?_, fun hlong => hno (fun text' key hr => ?_) _ _⟩
  swap
  · have hsame := (htext u).symm.trans (hr.displayed u)
    simp only [EStateM.Result.ok.injEq, and_true] at hsame
    exact hlong (hsame ▸ hr.fits)
  refine wp_toPaginatedHex (List.ne_nil_of_length_pos (by omega)) (by omega) (by rw [hlen]; decide)
    fun keyText hkeyText => ?_
  have hr : Reviewable dp text publicKey := ⟨htext, hplain, hfits, hkey⟩
  have hshown := Buf.text_write (b := (u.global.view ExportPublicKeyContext).display) hfits hplain
  generalize (u.global.view ExportPublicKeyContext).display.write 0 (text ++ [0]) hfits = display
    at hshown ⊢
  simp only [wp_bind, wp_setCtx, wp_modify]
  unfold uiGeneratePubkey
  simp only [wp_bind, wp_getCtx, InstructionContext.view_inject]
  cases hb : (Platform.backend : Backend) with
  | nbgl =>
    rw [nbglReview, wp_showScreen]
    refine h text publicKey hr _ ⟨?_, rfl⟩ rfl
    rw [keyReviewRows, hb, ← hshown]
    rfl
  | bagl =>
    rw [wp_showScreen]
    refine h text publicKey hr _ ⟨?_, rfl⟩ rfl
    rw [keyReviewRows, hb, ← hshown, ← hkeyText]
    rfl

/-- What a command needs to come to a review. -/
structure KeyRequest (cmd : Command) (s : World) (text publicKey : Bytes) : Prop where
  idle : s.publicKeyReviewPending = false
  display : cmd.p1 ≠ p1SkipDisplay
  sent : WellSent cmd.data
  reviewable : Reviewable (keyPath (sentNodes cmd.data)) text publicKey

theorem wp_sendPublicKey_answers :
    wp (sendPublicKey false) (fun _ t => t.replyPending = false) (fun _ _ => True) s := by
  unfold sendPublicKey
  simp only [wp_bind, wp_modify, wp_get]
  refine wp_reads _ (fun publicKey _ => ?_) fun _ _ => trivial
  simp only [wp_bind, wp_getCtx]
  refine wp_reads _ (fun signature _ => ?_) fun _ _ => trivial
  refine wp_if (fun h => absurd h Bool.false_ne_true) fun _ => ?_
  rw [wp_sendSuccess]
  rfl

theorem handleGetPublicKey_reviewed :
    wp (handleGetPublicKey cmd) (fun _ t => t.replyPending = true → ∃ text publicKey,
      KeyRequest cmd s text publicKey ∧
        KeyUnderReview (keyPath (sentNodes cmd.data)) text publicKey t) (fun _ _ => True) s := by
  unfold handleGetPublicKey
  rw [wp_bind, wp_get]
  refine wp_if (fun _ => ?_) fun hidle => ?_
  · rw [ioSendSw, wp_ioSendResponse]
    exact fun h => absurd h Bool.false_ne_true
  rw [wp_bind]
  refine wp_parseDerivationPath_sent (fun hsent n _ _ => ?_) fun _ _ _ => trivial
  rw [wp_bind, wp_modify, wp_bind, wp_modifyCtx]
  refine wp_if (fun _ => ?_) fun hdisplay => ?_
  · refine wp_mono (fun _ t ht hp => ?_) (fun _ _ h => h) wp_sendPublicKey_answers
    exact absurd (ht.symm.trans hp) Bool.false_ne_true
  · refine wp_reviewPublicKey rfl rfl (fun text publicKey hr t ht _ _ => ?_) fun _ _ _ => trivial
    exact ⟨text, publicKey, ⟨Bool.eq_false_iff.mpr hidle, hdisplay, hsent, hr⟩, ht⟩

theorem handleGetPublicKey_reviews {text publicKey : Bytes} (h : KeyRequest cmd s text publicKey) :
    wp (handleGetPublicKey cmd) (fun _ t =>
      KeyUnderReview (keyPath (sentNodes cmd.data)) text publicKey t ∧
        t.replyPending = s.replyPending) (fun _ _ => False) s := by
  unfold handleGetPublicKey
  rw [wp_bind, wp_get, if_neg (by simp [h.idle]), wp_bind]
  refine wp_parseDerivationPath_sent (fun _ n _ _ => ?_) fun hno => absurd h.sent hno
  rw [wp_bind, wp_modify, wp_bind, wp_modifyCtx, if_neg h.display]
  refine wp_reviewPublicKey rfl rfl (fun text' publicKey' hr t ht hp => ?_) fun hno => ?_
  · have htext := (hr.displayed s).symm.trans (h.reviewable.displayed s)
    have hkey := (hr.key s).symm.trans (h.reviewable.key s)
    simp only [EStateM.Result.ok.injEq, and_true, List.append_cancel_right_eq] at htext hkey
    subst htext hkey
    exact ⟨ht, hp⟩
  · exact absurd h.reviewable (hno _ _)

/-- A GET_PUBLIC_KEY command that has come to a review. -/
structure PublicKeyReviewed (w : World) (cmd : Command) (w' : World) : Prop where
  ins : cmd.ins = insGetPublicKey
  step : step w (.apdu cmd) = some w'
  pending : w'.replyPending = true

theorem dispatchInstruction_getPublicKey {isInitialCall : Bool} (h : cmd.ins = insGetPublicKey) :
    dispatchInstruction cmd isInitialCall = withData cmd (handleGetPublicKey cmd) := by
  simp only [dispatchInstruction, h]
  rfl

theorem PublicKeyReviewed.drawn (h : PublicKeyReviewed w cmd w') :
    ∃ isInitialCall s text publicKey, Received w cmd isInitialCall s ∧
      KeyRequest cmd s text publicKey ∧
      KeyUnderReview (keyPath (sentNodes cmd.data)) text publicKey w' := by
  refine of_pending_step (P := fun t => ∃ isInitialCall s text publicKey,
    Received w cmd isInitialCall s ∧ KeyRequest cmd s text publicKey ∧
      KeyUnderReview (keyPath (sentNodes cmd.data)) text publicKey t) h.step h.pending
    fun isInitialCall s hr => ?_
  rw [dispatchInstruction_getPublicKey h.ins]
  refine wp_withData (fun _ hp => absurd hp Bool.false_ne_true) fun _ => ?_
  refine wp_mono (fun _ t ht hp => ?_) (fun _ _ h => h) handleGetPublicKey_reviewed
  obtain ⟨text, publicKey, hrequest, hreview⟩ := ht hp
  exact ⟨isInitialCall, s, text, publicKey, hr, hrequest, hreview⟩

end Review

/-! ## Another path with the same identity row -/

/-- `PATH_APP_LOAD_PARAMS` of the Makefile. -/
def pathAppLoadParams : List (UInt32 × UInt32) :=
  [(newPurpose, newMainnetCoinType), (newPurpose, newTestnetCoinType),
    (legacyPurpose, legacyCoinType)]

/-- The OS lets the app derive keys at these nodes. -/
def Permitted (nodes : List UInt32) : Prop :=
  ∃ subtree ∈ pathAppLoadParams,
    [subtree.1 ||| hardenedBit, subtree.2 ||| hardenedBit] <+: nodes

instance (nodes : List UInt32) : Decidable (Permitted nodes) :=
  inferInstanceAs (Decidable (∃ _ ∈ _, _))

/-- Other nodes that a key is derived at and that have the same identity row. -/
structure LooksAlike (nodes nodes' : List UInt32) : Prop where
  length : nodes'.length ≤ derivationPathNodesMax
  permitted : Permitted (keyPath nodes').nodes
  signing : isExportableSigningPath (keyPath nodes') = isExportableSigningPath (keyPath nodes)
  display : publicKeyDisplay (keyPath nodes').unharden = publicKeyDisplay (keyPath nodes).unharden
  ne : keyPath nodes' ≠ keyPath nodes

section Other
variable {nodes : List UInt32}

theorem detectVariant_nodes (dp : DerivationPath) : dp.detectVariant.nodes = dp.nodes := by
  unfold DerivationPath.detectVariant
  dsimp only
  split_ifs <;> rfl

theorem keyPath_nodes (h : nodes.length ≤ derivationPathNodesMax) :
    (keyPath nodes).nodes = nodes.map (· ||| hardenedBit) := by
  show (DerivationPath.detectVariant _).nodes.map _ = _
  rw [detectVariant_nodes]
  exact congrArg (List.map _) (List.take_of_length_le h)

theorem zero_unhardened : (0 : UInt32) &&& ~~~hardenedBit = 0 := by decide

theorem unharden_node (dp : DerivationPath) (i : ℕ) :
    dp.unharden.node i = dp.node i &&& ~~~hardenedBit := by
  show (dp.nodes.map (· &&& ~~~hardenedBit)).getD i 0 = dp.nodes.getD i 0 &&& ~~~hardenedBit
  by_cases hi : i < dp.nodes.length
  · rw [List.getD_eq_getElem _ _ (by simpa using hi), List.getElem_map,
      List.getD_eq_getElem _ _ hi]
  · rw [List.getD_eq_default _ _ (by simpa using hi), List.getD_eq_default _ _ (by simpa using hi),
      zero_unhardened]

theorem keyPath_node (h : nodes.length ≤ derivationPathNodesMax) (i : ℕ) :
    (keyPath nodes).node i &&& ~~~hardenedBit = nodes.getD i 0 &&& ~~~hardenedBit := by
  unfold DerivationPath.node
  rw [keyPath_nodes h]
  by_cases hi : i < nodes.length
  · rw [List.getD_eq_getElem _ _ (by simpa using hi), List.getElem_map,
      List.getD_eq_getElem _ _ hi]
    exact unhardened_or
  · rw [List.getD_eq_default _ _ (by simpa using hi), List.getD_eq_default _ _ (by simpa using hi)]

theorem detectVariant_new (dp : DerivationPath) :
    dp.detectVariant.variant = .new ↔ dp.node 0 &&& ~~~hardenedBit = newPurpose := by
  unfold DerivationPath.detectVariant
  dsimp only
  split_ifs with hlen hlegacy hnew
  · rw [DerivationPath.node, List.length_eq_zero_iff.mp hlen]
    exact iff_of_false not_false (by decide)
  · rw [hlegacy]
    exact iff_of_false not_false (by decide)
  · exact iff_of_true rfl hnew
  · exact iff_of_false not_false hnew

theorem keyPath_new (h : nodes.length ≤ derivationPathNodesMax) :
    (keyPath nodes).variant = .new ↔ nodes.getD 0 0 &&& ~~~hardenedBit = newPurpose := by
  have hnode : (DerivationPath.ofNodes nodes .full).node 0 = nodes.getD 0 0 :=
    congrArg (fun l : List UInt32 => l.getD 0 0) (List.take_of_length_le h)
  rw [← hnode]
  exact detectVariant_new _

theorem keyPath_len (h : nodes.length ≤ derivationPathNodesMax) :
    (keyPath nodes).len = nodes.length := by
  unfold DerivationPath.len
  rw [keyPath_nodes h, List.length_map]

theorem shown_node (h : nodes.length ≤ derivationPathNodesMax) (i : ℕ) :
    (keyPath nodes).unharden.node i = nodes.getD i 0 &&& ~~~hardenedBit := by
  rw [unharden_node, keyPath_node h]

theorem shown_len (h : nodes.length ≤ derivationPathNodesMax) :
    (keyPath nodes).unharden.len = nodes.length :=
  (List.length_map _).trans (keyPath_len h)

theorem shown_new (h : nodes.length ≤ derivationPathNodesMax) :
    (keyPath nodes).unharden.variant = .new ↔ nodes.getD 0 0 &&& ~~~hardenedBit = newPurpose :=
  keyPath_new h

theorem keyPath_ne {nodes' : List UInt32} (h : nodes.length ≤ derivationPathNodesMax)
    (h' : nodes'.length ≤ derivationPathNodesMax)
    (hne : nodes'.map (· ||| hardenedBit) ≠ nodes.map (· ||| hardenedBit)) :
    keyPath nodes' ≠ keyPath nodes := by
  intro heq
  have hnodes := congrArg DerivationPath.nodes heq
  rw [keyPath_nodes h, keyPath_nodes h'] at hnodes
  exact hne hnodes

theorem xor_one_hardened (x : UInt32) : (x ^^^ 1) ||| hardenedBit ≠ x ||| hardenedBit := by
  intro h
  have hbits := congrArg (fun y : UInt32 => y.toBitVec.getLsbD 0) h
  simp [hardenedBit] at hbits

theorem unhardened_of_or {x y : UInt32} (h : x ||| hardenedBit = y ||| hardenedBit) :
    x &&& ~~~hardenedBit = y &&& ~~~hardenedBit := by
  rw [← unhardened_or (x := x), h, unhardened_or]

section Subtree
variable {purpose coinType : UInt32} {rest : List UInt32}

/-- The networks look alike. -/
theorem looksAlike_network (network : UInt32)
    (h : (purpose :: coinType :: rest).length ≤ derivationPathNodesMax)
    (hpurpose : purpose ||| hardenedBit = newPurpose ||| hardenedBit)
    (hnetwork : (newPurpose, network) ∈ pathAppLoadParams)
    (hne : network ||| hardenedBit ≠ coinType ||| hardenedBit) :
    LooksAlike (purpose :: coinType :: rest) (purpose :: network :: rest) := by
  have h' : (purpose :: network :: rest).length ≤ derivationPathNodesMax := h
  have hnew : purpose &&& ~~~hardenedBit = newPurpose := unhardened_of_or hpurpose
  have hshown (i : ℕ) : (purpose :: network :: rest).getD (i + 2) 0 =
      (purpose :: coinType :: rest).getD (i + 2) 0 := rfl
  refine ⟨h', ?_, ?_, ?_, keyPath_ne h h' fun heq => ?_⟩
  · rw [Permitted, keyPath_nodes h', List.map_cons, List.map_cons, hpurpose]
    exact ⟨_, hnetwork, _, rfl⟩
  · unfold isExportableSigningPath
    simp only [keyPath_new h, keyPath_new h', keyPath_len h, keyPath_len h', keyPath_node h,
      keyPath_node h', hshown, List.getD_cons_zero, List.length_cons]
  · rw [publicKeyDisplay_new ((shown_node h' 0).trans hnew) ((shown_new h').mpr hnew),
      publicKeyDisplay_new ((shown_node h 0).trans hnew) ((shown_new h).mpr hnew)]
    simp only [shown_node h, shown_node h', hshown]
  · exact hne (List.cons.inj (List.cons.inj heq).2).1

section Legacy
variable (hpurpose : purpose ||| hardenedBit = legacyPurpose ||| hardenedBit)
  (hcoin : coinType ||| hardenedBit = legacyCoinType ||| hardenedBit)
include hpurpose

theorem legacy_not_new (h : (purpose :: coinType :: rest).length ≤ derivationPathNodesMax) :
    (keyPath (purpose :: coinType :: rest)).unharden.variant ≠ .new := by
  rw [Ne, shown_new h, List.getD_cons_zero, unhardened_of_or hpurpose]
  decide

include hcoin

theorem looksAlike_legacy {rest' : List UInt32}
    (h : (purpose :: coinType :: rest).length ≤ derivationPathNodesMax)
    (h' : (purpose :: coinType :: rest').length ≤ derivationPathNodesMax)
    (hdisplay : publicKeyDisplay (keyPath (purpose :: coinType :: rest')).unharden =
      publicKeyDisplay (keyPath (purpose :: coinType :: rest)).unharden)
    (hne : rest'.map (· ||| hardenedBit) ≠ rest.map (· ||| hardenedBit)) :
    LooksAlike (purpose :: coinType :: rest) (purpose :: coinType :: rest') := by
  have hsigning {rest : List UInt32}
      (h : (purpose :: coinType :: rest).length ≤ derivationPathNodesMax) :
      isExportableSigningPath (keyPath (purpose :: coinType :: rest)) = false := by
    have hnot : (keyPath (purpose :: coinType :: rest)).variant ≠ .new :=
      legacy_not_new hpurpose h
    unfold isExportableSigningPath
    rw [decide_eq_false hnot, Bool.false_and, Bool.false_and]
  refine ⟨h', ?_, (hsigning h').trans (hsigning h).symm, hdisplay, keyPath_ne h h' fun heq => ?_⟩
  · rw [Permitted, keyPath_nodes h', List.map_cons, List.map_cons, hpurpose, hcoin]
    exact ⟨(legacyPurpose, legacyCoinType), by decide, _, rfl⟩
  · exact hne (List.cons.inj (List.cons.inj heq).2).2

/-- A path that ends behind the coin type is shown as identity 0 and account 0. -/
theorem looksAlike_bare : LooksAlike [purpose, coinType] [purpose, coinType, 0] := by
  have h : [purpose, coinType].length ≤ derivationPathNodesMax := Nat.le_of_ble_eq_true rfl
  have h' : [purpose, coinType, 0].length ≤ derivationPathNodesMax := Nat.le_of_ble_eq_true rfl
  refine looksAlike_legacy hpurpose hcoin h h' ?_ (by simp)
  rw [publicKeyDisplay_legacy (by simp [shown_len h']) (legacy_not_new hpurpose h'),
    publicKeyDisplay_legacy (by simp [shown_len h]) (legacy_not_new hpurpose h)]
  simp only [shown_node h, shown_node h']
  rfl

/-- The key index of a governance key is not shown. -/
theorem looksAlike_governance {subtree level key : UInt32} :
    LooksAlike [purpose, coinType, subtree, level, key]
      [purpose, coinType, subtree, level, key ^^^ 1] := by
  have hlegacy : purpose &&& ~~~hardenedBit = legacyPurpose := unhardened_of_or hpurpose
  have h (key : UInt32) : [purpose, coinType, subtree, level, key].length ≤
      derivationPathNodesMax := Nat.le_of_ble_eq_true rfl
  refine looksAlike_legacy hpurpose hcoin (h _) (h _) ?_ (by simp [xor_one_hardened])
  rw [publicKeyDisplay_five (shown_len (h _)) ((shown_node (h _) 0).trans hlegacy),
    publicKeyDisplay_five (shown_len (h _)) ((shown_node (h _) 0).trans hlegacy)]
  simp only [shown_node (h _)]
  rfl

/-- The subtree of another legacy key is not shown. -/
theorem looksAlike_subtree {subtree : UInt32}
    (h : (purpose :: coinType :: subtree :: rest).length ≤ derivationPathNodesMax)
    (hlen : rest.length ≠ 2) :
    LooksAlike (purpose :: coinType :: subtree :: rest)
      (purpose :: coinType :: (subtree ^^^ 1) :: rest) := by
  have h' : (purpose :: coinType :: (subtree ^^^ 1) :: rest).length ≤ derivationPathNodesMax := h
  have hnot {node : UInt32} (h : (purpose :: coinType :: node :: rest).length ≤
      derivationPathNodesMax) :
    (keyPath (purpose :: coinType :: node :: rest)).unharden.len ≠ 5 := by
    rw [shown_len h]
    simpa using hlen
  refine looksAlike_legacy hpurpose hcoin h h' ?_ (by simp [xor_one_hardened])
  rw [publicKeyDisplay_legacy (hnot h') (legacy_not_new hpurpose h'),
    publicKeyDisplay_legacy (hnot h) (legacy_not_new hpurpose h)]
  simp only [shown_node h, shown_node h']
  rfl

end Legacy

end Subtree

/-- No identity row is that of one key only. -/
theorem exists_looksAlike (h : nodes.length ≤ derivationPathNodesMax)
    (hp : Permitted (keyPath nodes).nodes) : ∃ nodes', LooksAlike nodes nodes' := by
  obtain ⟨subtree, hmem, tail, hprefix⟩ := hp
  rw [keyPath_nodes h] at hprefix
  match nodes, h, hprefix with
  | [], _, hprefix => cases hprefix
  | [_], _, hprefix => cases (List.cons.inj hprefix).2
  | purpose :: coinType :: rest, h, hprefix =>
    obtain ⟨hhead, htail⟩ := List.cons.inj hprefix
    have hpurpose : purpose ||| hardenedBit = subtree.1 ||| hardenedBit := hhead.symm
    have hcoin : coinType ||| hardenedBit = subtree.2 ||| hardenedBit :=
      (List.cons.inj htail).1.symm
    simp only [pathAppLoadParams, List.mem_cons, List.not_mem_nil, or_false] at hmem
    rcases hmem with rfl | rfl | rfl
    · exact ⟨_, looksAlike_network newTestnetCoinType h hpurpose (by decide)
        (by rw [hcoin]; decide)⟩
    · exact ⟨_, looksAlike_network newMainnetCoinType h hpurpose (by decide)
        (by rw [hcoin]; decide)⟩
    · match rest, h with
      | [], _ => exact ⟨_, looksAlike_bare hpurpose hcoin⟩
      | subtree :: rest, h =>
        by_cases hlen : rest.length = 2
        · obtain ⟨level, key, rfl⟩ := List.length_eq_two.mp hlen
          exact ⟨_, looksAlike_governance hpurpose hcoin⟩
        · exact ⟨_, looksAlike_subtree hpurpose hcoin h hlen⟩

end Other

/-! ## What the review determines -/

section Determines
variable [Platform] {w w' : World} {cmd : Command}

/-- Different hardened paths have different public keys. -/
def DistinctKeys : Prop :=
  ∀ (path path' : DerivationPath) publicKey, path.harden = path → path'.harden = path' →
    PublicKeyAt path publicKey → PublicKeyAt path' publicKey → path.nodes = path'.nodes

/-- The app has keys at the hardened paths that the OS permits, and at no others. -/
structure KeysPermitted : Prop where
  permitted : ∀ (path : DerivationPath) publicKey, PublicKeyAt path publicKey →
    Permitted path.nodes
  hasKey : ∀ path : DerivationPath, path.harden = path → Permitted path.nodes →
    ∃ publicKey, PublicKeyAt path publicKey

omit [Platform] in
theorem or_or_hardened (x : UInt32) : x ||| hardenedBit ||| hardenedBit = x ||| hardenedBit := by
  apply UInt32.eq_of_toBitVec_eq
  ext i hi
  simp

omit [Platform] in
theorem harden_harden (dp : DerivationPath) : dp.harden.harden = dp.harden := by
  simp [DerivationPath.harden, DerivationPath.mapNodes, or_or_hardened]

omit [Platform] in
theorem detectVariant_harden (dp : DerivationPath) :
    dp.detectVariant.harden = dp.harden.detectVariant := by
  have hlen : dp.harden.len = dp.len := List.length_map _
  have hnode (hne : dp.len ≠ 0) :
      dp.harden.node 0 &&& ~~~hardenedBit = dp.node 0 &&& ~~~hardenedBit := by
    have hpos : 0 < dp.nodes.length := Nat.pos_of_ne_zero hne
    show (dp.nodes.map (· ||| hardenedBit)).getD 0 0 &&& _ = dp.nodes.getD 0 0 &&& _
    rw [List.getD_eq_getElem _ _ (by simpa using hpos), List.getElem_map,
      List.getD_eq_getElem _ _ hpos]
    exact unhardened_or
  unfold DerivationPath.detectVariant
  rw [hlen]
  by_cases hzero : dp.len = 0
  · rw [if_pos hzero, if_pos hzero]
    rfl
  · rw [if_neg hzero, if_neg hzero, hnode hzero]
    dsimp only
    split_ifs <;> rfl

omit [Platform] in
/-- The nodes of a key's path determine its variant. -/
theorem keyPath_injective {nodes nodes' : List UInt32}
    (h : (keyPath nodes).nodes = (keyPath nodes').nodes) : keyPath nodes = keyPath nodes' := by
  have hsent (nodes : List UInt32) :
      (keyPath nodes).nodes = (DerivationPath.ofNodes nodes .full).harden.nodes := by
    unfold keyPath
    rw [detectVariant_harden, detectVariant_nodes]
  have hsame : (DerivationPath.ofNodes nodes .full).harden =
      (DerivationPath.ofNodes nodes' .full).harden := by
    rw [hsent, hsent] at h
    rw [DerivationPath.mk.injEq]
    exact ⟨h, rfl⟩
  unfold keyPath
  rw [detectVariant_harden, detectVariant_harden, hsame]

omit [Platform] in
theorem wireNodes_length (bs : Bytes) (n : ℕ) : (wireNodes bs n).length = n := by
  induction n generalizing bs with
  | zero => rfl
  | succ n ih => rw [wireNodes, List.length_cons, ih]

theorem PublicKeyAt.returns {dp : DerivationPath} {publicKey : Bytes} (h : PublicKeyAt dp publicKey)
    (s : World) : getPublicKey dp s = .ok publicKey s := by
  obtain ⟨u, v, hkey⟩ := h
  have hsame : wp (getPublicKey dp) (fun key _ => ∀ t, getPublicKey dp t = .ok key t)
      (fun _ _ => True) u := wp_stateless (fun _ h => h) fun _ _ => trivial
  exact wp_ok hsame hkey s

/-- A command for other nodes. -/
def otherCommand (cmd : Command) (nodes : List UInt32) (h : nodes.length ≤ derivationPathNodesMax) :
    Command where
  ins := insGetPublicKey
  p1 := cmd.p1
  p2 := cmd.p2
  data := wirePath nodes
  lc_le := by
    rw [wirePath_length]
    unfold derivationPathNodesMax at h
    omega

/-- It comes to a review with the same identity row. -/
theorem KeyRequest.other {s : World} {text publicKey : Bytes} (hkeys : KeysPermitted)
    (h : KeyRequest cmd s text publicKey) {nodes : List UInt32}
    (halike : LooksAlike (sentNodes cmd.data) nodes) :
    ∃ publicKey', KeyRequest (otherCommand cmd nodes halike.length) s text publicKey' := by
  have hsent : sentNodes (otherCommand cmd nodes halike.length).data = nodes :=
    sentNodes_wirePath halike.length
  have hdepth := congrArg List.length hsent
  rw [sentNodes, wireNodes_length] at hdepth
  have hlen : (otherCommand cmd nodes halike.length).data.length = 1 + nodes.length * 4 :=
    wirePath_length _
  obtain ⟨publicKey', hkey⟩ := hkeys.hasKey (keyPath nodes) (harden_harden _) halike.permitted
  refine ⟨publicKey', h.idle, h.display, ⟨?_, ?_, ?_, ?_⟩, ?_⟩
  · omega
  · rw [hdepth]
    exact not_lt.mpr halike.length
  · rw [hdepth, hlen]
    exact lt_irrefl _
  · rw [hsent, halike.signing]
    exact h.sent.signing
  · rw [hsent]
    refine ⟨fun t => ?_, h.reviewable.plain, h.reviewable.fits, hkey.returns⟩
    rw [halike.display]
    exact h.reviewable.displayed t

omit [Platform] in
theorem Received.of_ins {cmd' : Command} {isInitialCall : Bool} {s : World}
    (h : Received w cmd isInitialCall s) (hins : cmd'.ins = cmd.ins) :
    Received w cmd' isInitialCall s := by
  cases h with
  | first hl =>
    rw [← hins]
    exact .first hl
  | next hl =>
    rw [← hins] at hl ⊢
    exact .next hl

/-- Reviews that look like this one are reviews of its path. -/
def LooksLikeNoOther (w' : World) : Prop :=
  ∀ v cmd' v', PublicKeyReviewed v cmd' v' → v'.screen.rows = w'.screen.rows →
    v'.reviewedPath = w'.reviewedPath

/-- On BAGL the key on screen says which path it is. -/
theorem PublicKeyReviewed.alone (hdistinct : DistinctKeys) (h : PublicKeyReviewed w cmd w')
    (hbagl : (Platform.backend : Backend) = .bagl) : LooksLikeNoOther w' := by
  obtain ⟨_, s, text, publicKey, -, hrequest, hreview⟩ := h.drawn
  intro v cmd' v' h' hrows
  obtain ⟨_, s', text', publicKey', -, hrequest', hreview'⟩ := h'.drawn
  rw [hreview.rows, hreview'.rows, keyReviewRows, keyReviewRows, hbagl] at hrows
  have hhex : paginatedHex publicKey' = paginatedHex publicKey := by
    simp only [row, List.cons.injEq, Row.mk.injEq, true_and, and_true] at hrows
    exact hrows.2
  have hkey : publicKey' = publicKey := by
    refine paginatedHex_injective ?_ hhex
    rw [(wp_ok getPublicKey_length (hrequest.reviewable.key s)).2,
      (wp_ok getPublicKey_length (hrequest'.reviewable.key s)).2]
  subst hkey
  rw [hreview.path, hreview'.path]
  refine keyPath_injective (hdistinct _ _ publicKey' (harden_harden _) (harden_harden _)
    ⟨s, s, hrequest'.reviewable.key s⟩ ⟨s, s, hrequest.reviewable.key s⟩)

/-- On NBGL the review of another path looks the same. -/
theorem PublicKeyReviewed.exists_other (hkeys : KeysPermitted) (h : PublicKeyReviewed w cmd w')
    (hnbgl : (Platform.backend : Backend) = .nbgl) : ¬ LooksLikeNoOther w' := by
  obtain ⟨isInitialCall, s, text, publicKey, hreceived, hrequest, hreview⟩ := h.drawn
  have hle : (sentNodes cmd.data).length ≤ derivationPathNodesMax := by
    rw [sentNodes, wireNodes_length]
    exact not_lt.mp hrequest.sent.depth
  obtain ⟨nodes, halike⟩ := exists_looksAlike hle
    (hkeys.permitted _ publicKey ⟨s, s, hrequest.reviewable.key s⟩)
  obtain ⟨publicKey', hrequest'⟩ := hrequest.other hkeys halike
  have hsent : sentNodes (otherCommand cmd nodes halike.length).data = nodes :=
    sentNodes_wirePath halike.length
  have hidle : w.replyPending = false := by
    simpa [enabled] using (step_eq_some.mp h.step).1
  have hs : s.replyPending = true := by cases hreceived <;> rfl
  have hdispatch : wp (dispatchInstruction (otherCommand cmd nodes halike.length) isInitialCall)
      (fun _ t => KeyUnderReview (keyPath (sentNodes (otherCommand cmd nodes halike.length).data))
        text publicKey' t ∧ t.replyPending = s.replyPending) (fun _ _ => False) s := by
    rw [dispatchInstruction_getPublicKey rfl, withData, if_neg]
    · exact handleGetPublicKey_reviews hrequest'
    · exact fun h0 => hrequest'.sent.nonempty (h0.trans_lt Nat.one_pos)
  obtain ⟨v, hstep, hreview', hpending⟩ :=
    step_received (hreceived.of_ins h.ins.symm) hidle hdispatch
  have hrows : v.screen.rows = w'.screen.rows := by
    rw [hreview'.rows, hreview.rows, keyReviewRows, keyReviewRows, hnbgl]
  intro halone
  have hpath := halone w _ v ⟨rfl, hstep, hpending.trans hs⟩ hrows
  rw [hreview'.path, hreview.path, hsent] at hpath
  exact halike.ne hpath

/-- Reviews that look alike are reviews of one path on BAGL, and where the app has
    keys as the OS permits, on BAGL only. -/
theorem public_key_review (hdistinct : DistinctKeys) (h : PublicKeyReviewed w cmd w') :
    ((Platform.backend : Backend) = .bagl → LooksLikeNoOther w') ∧
      (KeysPermitted → (LooksLikeNoOther w' ↔ (Platform.backend : Backend) = .bagl)) := by
  refine ⟨h.alone hdistinct, fun hkeys => ⟨fun halone => ?_, h.alone hdistinct⟩⟩
  cases hb : (Platform.backend : Backend) with
  | bagl => rfl
  | nbgl => exact absurd halone (h.exists_other hkeys hb)

end Determines

/-! ## A device whose keys differ -/

/-- The bytes of some nodes; each hardened node starts with a byte that is not
    zero. -/
def packedNodes (nodes : List UInt32) : Bytes := nodes.flatMap fun node => toBe 4 node.toNat

/-- `device` with a key of its own for every path that the OS permits. -/
@[reducible] def keyedDevice (backend : Backend) : Platform :=
  { device backend with
    deriveSlip10 := fun nodes =>
      if Permitted nodes then some (Buf.ofBytes 32 (packedNodes nodes), Buf.zero 32) else none
    ecfpGeneratePair := fun key => some (Buf.ofBytes 65 (List.replicate 33 0 ++ key.bytes)) }

theorem packedNodes_length (nodes : List UInt32) :
    (packedNodes nodes).length = nodes.length * 4 := by
  have := wirePath_length nodes
  rw [wirePath, List.length_cons] at this
  unfold packedNodes
  omega

theorem hardened_head {node : UInt32} {bs : Bytes} (h : node ||| hardenedBit = node) {k : ℕ} :
    toBe 4 node.toNat ++ bs ≠ List.replicate k 0 := by
  intro heq
  have hhead : UInt8.ofNat (node.toNat / 256 ^ 3) ∈ List.replicate k (0 : UInt8) := by
    rw [← heq]
    exact List.mem_cons_self
  have hzero := List.eq_of_mem_replicate hhead
  have hlow : 2 ^ 31 ≤ node.toNat := by
    rw [← h, UInt32.toNat_or]
    exact Nat.right_le_or
  have hhigh : node.toNat < 2 ^ 32 := node.toNat_lt
  have hbyte := congrArg UInt8.toNat hzero
  rw [UInt8.toNat_ofNat'] at hbyte
  simp at hbyte
  omega

theorem packedNodes_injective {nodes nodes' : List UInt32} {j k : ℕ}
    (h : ∀ node ∈ nodes, node ||| hardenedBit = node)
    (h' : ∀ node ∈ nodes', node ||| hardenedBit = node)
    (heq : packedNodes nodes ++ List.replicate j 0 = packedNodes nodes' ++ List.replicate k 0) :
    nodes = nodes' := by
  induction nodes generalizing nodes' with
  | nil =>
    cases nodes' with
    | nil => rfl
    | cons node' rest' =>
      have hhead := (List.forall_mem_cons.mp h').1
      rw [packedNodes, packedNodes, List.flatMap_nil, List.nil_append, List.flatMap_cons,
        List.append_assoc] at heq
      exact absurd heq.symm (hardened_head hhead)
  | cons node rest ih =>
    obtain ⟨hhead, hrest⟩ := List.forall_mem_cons.mp h
    cases nodes' with
    | nil =>
      rw [packedNodes, packedNodes, List.flatMap_nil, List.nil_append, List.flatMap_cons,
        List.append_assoc] at heq
      exact absurd heq (hardened_head hhead)
    | cons node' rest' =>
      rw [packedNodes, packedNodes, List.flatMap_cons, List.flatMap_cons, List.append_assoc,
        List.append_assoc] at heq
      obtain ⟨hbytes, htail⟩ := List.append_inj heq (by rw [toBe_length, toBe_length])
      have hnumber := congrArg beNat hbytes
      rw [beNat_toBe, beNat_toBe, Nat.mod_eq_of_lt (lt_of_lt_of_le node.toNat_lt (by decide)),
        Nat.mod_eq_of_lt (lt_of_lt_of_le node'.toNat_lt (by decide))] at hnumber
      rw [UInt32.toNat_inj.mp hnumber, ih hrest (List.forall_mem_cons.mp h').2 htail]

theorem compressPoint_ofBytes (key : Buf 32) :
    compressPoint (Buf.ofBytes 65 (List.replicate 33 0 ++ key.bytes)) = key.bytes.reverse := by
  have hlen : (List.replicate 33 (0 : UInt8) ++ key.bytes).length = 65 := by
    rw [List.length_append, List.length_replicate, key.bytes_length]
  have hbytes : (Buf.ofBytes 65 (List.replicate 33 0 ++ key.bytes)).bytes =
      List.replicate 33 0 ++ key.bytes := by
    rw [Buf.ofBytes_bytes hlen.le, hlen, Nat.sub_self, List.replicate_zero, List.append_nil]
  have heven : (List.replicate 33 (0 : UInt8) ++ key.bytes).getD 32 0 &&& 1 = 0 := by
    rw [List.getD_append _ _ _ _ (by simp)]
    rfl
  unfold compressPoint
  rw [hbytes]
  exact if_neg (not_not.mpr heven)

section Keyed
variable {backend : Backend} {path : DerivationPath}

theorem keyedDevice_key (h : Permitted path.nodes) (u : World) :
    letI : Platform := keyedDevice backend
    getPublicKey path u = .ok (Buf.ofBytes 32 (packedNodes path.nodes)).bytes.reverse u := by
  let : Platform := keyedDevice backend
  have hderive : Platform.deriveSlip10 path.nodes =
      some (Buf.ofBytes 32 (packedNodes path.nodes), Buf.zero 32) := if_pos h
  unfold getPublicKey getPrivateKey getExtendedPrivateKey
  rw [hderive]
  exact congrArg (EStateM.Result.ok · u) (compressPoint_ofBytes _)

theorem keyedDevice_permitted {publicKey : Bytes} (h : (letI : Platform := keyedDevice backend
    PublicKeyAt path publicKey)) : Permitted path.nodes := by
  let : Platform := keyedDevice backend
  obtain ⟨u, v, hkey⟩ := h
  by_contra hno
  have hderive : Platform.deriveSlip10 path.nodes = none := if_neg hno
  unfold getPublicKey getPrivateKey getExtendedPrivateKey at hkey
  rw [hderive] at hkey
  cases hkey

theorem keysPermitted_keyedDevice :
    letI : Platform := keyedDevice backend
    KeysPermitted :=
  let : Platform := keyedDevice backend
  ⟨fun _ _ h => keyedDevice_permitted h,
    fun _ _ h => ⟨_, World.start, World.start, keyedDevice_key h _⟩⟩

theorem hardened_nodes (h : path.harden = path) :
    ∀ node ∈ path.nodes, node ||| hardenedBit = node := by
  have hmap : path.nodes.map (· ||| hardenedBit) = path.nodes := congrArg DerivationPath.nodes h
  intro node hmem
  rw [← hmap] at hmem
  obtain ⟨x, -, rfl⟩ := List.mem_map.mp hmem
  exact or_or_hardened x

theorem distinctKeys_keyedDevice :
    letI : Platform := keyedDevice backend
    DistinctKeys := by
  let : Platform := keyedDevice backend
  intro path path' publicKey hp hp' h h'
  have hpermitted := keyedDevice_permitted h
  have hpermitted' := keyedDevice_permitted h'
  obtain ⟨u, v, h⟩ := h
  obtain ⟨u', v', h'⟩ := h'
  have hsame : (Buf.ofBytes 32 (packedNodes path.nodes)).bytes =
      (Buf.ofBytes 32 (packedNodes path'.nodes)).bytes := by
    have h1 := (keyedDevice_key hpermitted u).symm.trans h
    have h2 := (keyedDevice_key hpermitted' u').symm.trans h'
    simp only [EStateM.Result.ok.injEq] at h1 h2
    exact List.reverse_injective (h1.1.trans h2.1.symm)
  have hfits (path : DerivationPath) : (packedNodes path.nodes).length ≤ 32 := by
    rw [packedNodes_length]
    exact Nat.mul_le_mul_right 4 path.len_le
  rw [Buf.ofBytes_bytes (hfits path), Buf.ofBytes_bytes (hfits path')] at hsame
  exact packedNodes_injective (hardened_nodes hp) (hardened_nodes hp') hsame

end Keyed

/-- Asks for the key of an account on either network. -/
def accountKeyCommand (coinType : UInt32) : Command where
  ins := insGetPublicKey
  p1 := 0
  p2 := 0
  data := wirePath [newPurpose, coinType, 1, 2, 3]
  lc_le := by
    rw [wirePath_length]
    exact Nat.le_of_ble_eq_true rfl

/-- Mainnet and testnet keys are reviewed alike. -/
theorem public_keys_alike :
    letI : Platform := keyedDevice .nbgl
    DistinctKeys ∧ KeysPermitted ∧ ∃ w w',
      PublicKeyReviewed World.start (accountKeyCommand newMainnetCoinType) w ∧
      PublicKeyReviewed World.start (accountKeyCommand newTestnetCoinType) w' ∧
      w.screen.rows = w'.screen.rows ∧ w.reviewedPath ≠ w'.reviewedPath := by
  let : Platform := keyedDevice .nbgl
  have hrun : ((step World.start (.apdu (accountKeyCommand newMainnetCoinType))).bind fun w =>
      (step World.start (.apdu (accountKeyCommand newTestnetCoinType))).map fun w' =>
        (w, w')).any (fun ws => decide (ws.1.replyPending = true ∧ ws.2.replyPending = true ∧
          ws.1.screen.rows = ws.2.screen.rows ∧ ws.1.reviewedPath ≠ ws.2.reviewedPath)) = true := by
    decide +kernel
  obtain ⟨⟨w, w'⟩, hws, hcheck⟩ := (Option.any_eq_true _ _).mp hrun
  obtain ⟨v, hv, hws⟩ := Option.bind_eq_some_iff.mp hws
  obtain ⟨v', hv', hpair⟩ := Option.map_eq_some_iff.mp hws
  cases hpair
  obtain ⟨hp, hp', hrows, hpaths⟩ := of_decide_eq_true hcheck
  exact ⟨distinctKeys_keyedDevice, keysPermitted_keyedDevice, w, w', ⟨rfl, hv, hp⟩, ⟨rfl, hv', hp'⟩,
    hrows, hpaths⟩

/-- On BAGL the review of an account's key is that of no other path, on NBGL it is that
    of another one. -/
theorem public_key_review_backends :
    (letI : Platform := keyedDevice .bagl
     ∃ w, PublicKeyReviewed World.start (accountKeyCommand newMainnetCoinType) w ∧
       LooksLikeNoOther w) ∧
    (letI : Platform := keyedDevice .nbgl
     ∃ w, PublicKeyReviewed World.start (accountKeyCommand newMainnetCoinType) w ∧
       ¬ LooksLikeNoOther w) := by
  constructor
  · let : Platform := keyedDevice .bagl
    have hrun : (step World.start (.apdu (accountKeyCommand newMainnetCoinType))).any
        (·.replyPending) = true := by decide +kernel
    obtain ⟨w, hw, hp⟩ := (Option.any_eq_true _ _).mp hrun
    have hreviewed : PublicKeyReviewed World.start (accountKeyCommand newMainnetCoinType) w :=
      ⟨rfl, hw, hp⟩
    exact ⟨w, hreviewed, (public_key_review distinctKeys_keyedDevice hreviewed).1 rfl⟩
  · let : Platform := keyedDevice .nbgl
    have hrun : (step World.start (.apdu (accountKeyCommand newMainnetCoinType))).any
        (·.replyPending) = true := by decide +kernel
    obtain ⟨w, hw, hp⟩ := (Option.any_eq_true _ _).mp hrun
    have hreviewed : PublicKeyReviewed World.start (accountKeyCommand newMainnetCoinType) w :=
      ⟨rfl, hw, hp⟩
    refine ⟨w, hreviewed, fun halone => ?_⟩
    have hiff := (public_key_review distinctKeys_keyedDevice hreviewed).2 keysPermitted_keyedDevice
    exact absurd (hiff.mp halone) (by decide)

end Concordium
