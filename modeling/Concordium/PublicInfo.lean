/-
  How the keys of a public-information review are streamed.

  The first packet declares how many keys follow.  Every key but the last is
  reviewed as it arrives; the last one is shown with the threshold, where the
  user signs.
-/
import Concordium.HashedFields
import Concordium.ProofStreaming

namespace Concordium

open Buffer Union Wp Runs

/-! ## Keys -/

/-- What is hashed of a key packet: its type, its index and the key. -/
def keyRecord (cmd : Command) : Bytes := cmd.data.take 34

/-- The rows that show a key. -/
def keyRows (cmd : Command) : List Row :=
  [row "Public key" (paginatedHex ((cmd.data.drop 2).take 32)),
    row "Key type" (hexUpper (cmd.data.take 1))]

/-- The key of every packet has been shown and accepted. -/
def AllAccepted (keys : List Command) (w : World) : Prop :=
  ∀ cmd ∈ keys, ∀ r ∈ keyRows cmd, r ∈ accepted w.log

section Keys
variable [Platform] {cmd : Command} {s t w : World} {Q : Unit → World → Prop}
  {E : Exception → World → Prop}

/-- The keys have arrived as far as `keys`; what was hashed in front of them
    ends with their number. -/
structure KeyStream (base : Bytes) (keys : List Command) (tail : Bytes) (w : World) : Prop where
  base_length : base.length = 97
  whole : ∀ cmd ∈ keys, 34 ≤ cmd.data.length
  fits : keys.length ≤ (base.getD 96 0).toNat
  counter : (w.global.view SignPublicInformationForIp).publicKeysLength =
    (base.getD 96 0).toNat - keys.length
  hashed : w.txState.hash = base ++ keys.flatMap keyRecord ++ tail

/-! ## Reviews -/

omit [Platform] in
theorem mem_review {pairs rows : List Row} {title finish : Row} (h : pairs ⊆ rows) :
    pairs ⊆ title :: rows ++ [finish] := fun _ hr =>
  List.mem_append_left _ (List.mem_cons_of_mem _ (h hr))

/-- A review that goes on shows the key, and has no step that signs. -/
theorem wp_uiPublicInformationContinue {intro : Bool}
    (h : ∀ rows actions, publicKeyRows (s.global.view SignPublicInformationForIp) ⊆ rows →
      (∀ c ∈ actions, c = .sendSuccessNoIdle ∨ c = .rejectStagedReview) →
      Q () { s with
        screen := s.screenOf rows actions, log := s.log ++ [.drawn (s.screenOf rows actions)] }) :
    wp (uiPublicInformationContinue intro) Q E s := by
  unfold uiPublicInformationContinue
  simp only [wp_bind, wp_getCtx]
  cases hb : (Platform.backend : Backend) with
  | nbgl =>
    simp only [nbglStagedReview, nbglReview]
    refine wp_if (fun _ => ?_) fun _ => ?_
    · rw [wp_showScreen]
      exact h _ _ (mem_review (List.subset_append_left _ _)) (by simp)
    · rw [wp_showScreen]
      exact h _ _ (mem_review (List.Subset.refl _)) (by simp)
  | bagl =>
    refine wp_if (fun _ => ?_) fun _ => ?_
    · rw [wp_showScreen]
      exact h _ _ (List.subset_cons_of_subset _ (List.subset_append_left _ _)) (by simp)
    · rw [wp_showScreen]
      exact h _ _ (List.Subset.refl _) (by simp)

/-- The final review shows the key, and signs. -/
theorem wp_uiPublicInformationSign {complete : Bool}
    (h : ∀ rows actions, publicKeyRows (s.global.view SignPublicInformationForIp) ⊆ rows →
      (∀ c ∈ actions, c = .sendSuccessNoIdle ∨ c ∈ signFlowShared) →
      Q () { s with
        screen := s.screenOf rows actions, log := s.log ++ [.drawn (s.screenOf rows actions)] }) :
    wp (uiPublicInformationSign complete) Q E s := by
  unfold uiPublicInformationSign
  simp only [wp_bind, wp_getCtx]
  cases hb : (Platform.backend : Backend) with
  | nbgl =>
    simp only [nbglSignReview, nbglReview]
    refine wp_if (fun _ => ?_) fun _ => ?_
    · rw [wp_showScreen]
      exact h _ _ (mem_review (List.subset_append_left _ _)) (by simp [signFlowShared])
    · rw [wp_showScreen]
      exact h _ _ (mem_review (List.subset_append_left _ _)) (by simp [signFlowShared])
  | bagl =>
    refine wp_if (fun _ => ?_) fun _ => ?_
    · rw [wp_showScreen]
      refine h _ _ (List.subset_cons_of_subset _ ?_) (by simp)
      exact List.Subset.trans (List.subset_append_left _ _) (List.subset_append_left _ _)
    · rw [wp_showScreen]
      exact h _ _ (List.subset_append_left _ _) fun c hc => .inr hc

/-! ## Packets -/

/-- The first packet declares the number of keys. -/
theorem wp_publicInfoInitial :
    wp (publicInfoInitial cmd) (fun _ t => t.replyPending = false ∧
      (t.global.view SignPublicInformationForIp).state = .verificationKey ∧
      ∃ base, KeyStream base [] [] t) (fun _ _ => True) s := by
  unfold publicInfoInitial
  rw [wp_bind]
  refine wp_parseDerivationPath (fun _ _ => trivial) fun dp log _ => ?_
  simp only [wp_bind, wp_advance, wp_sha256Init, wp_getCtx, implies_true, and_true]
  intro _
  generalize cmd.data.drop _ = cdata
  refine wp_hashHexField (fun idCredPub t hid ht => ?_) fun _ => trivial
  rw [wp_bind]
  refine wp_hashHexField (fun credId u hcred hu => ?_) fun _ => trivial
  rw [wp_bind, wp_throwIf]
  refine ⟨fun _ => trivial, fun hlen => ?_⟩
  rw [wp_bind, wp_u8]
  refine ⟨fun _ => ?_, fun _ => trivial⟩
  rw [wp_bind]
  refine wp_updateHash_onto fun v hv => ?_
  rw [wp_bind, wp_setCtx]
  have hhash := ((ht.trans hu).trans hv).hash
  dsimp only at hcred hhash
  rw [List.nil_append, List.drop_drop] at hhash
  have hlength : (cdata.take 48 ++ (cdata.drop 48).take 48).length = 96 := by
    rw [List.length_append, List.length_take_of_le hid, List.length_take_of_le hcred]
  have hnumber : (v.txState.hash).getD 96 0 = (cdata.drop (48 + 48)).getD 0 0 := by
    rw [hhash, List.getD_append_right _ _ _ _ hlength.le, hlength]
    rfl
  refine ⟨rfl, ?_, v.txState.hash, ⟨?_, by simp, Nat.zero_le _, ?_, by simp⟩⟩
  · exact congrArg SignPublicInformationForIp.state (InstructionContext.view_inject _)
  · rw [hhash, List.length_append, hlength, List.length_singleton]
  · refine (congrArg SignPublicInformationForIp.publicKeysLength
      (InstructionContext.view_inject _)).trans ?_
    rw [hnumber, List.length_nil, Nat.sub_zero]
    dsimp only
    rw [List.drop_drop]

/-- A key that is not the last is on screen, where nothing can be signed. -/
structure KeyReviewing (base : Bytes) (keys : List Command) (last : Command) (w : World) :
    Prop where
  stream : KeyStream base (keys ++ [last]) [] w
  more : (keys ++ [last]).length < (base.getD 96 0).toNat
  state : (w.global.view SignPublicInformationForIp).state = .verificationKey
  accepted : AllAccepted keys w
  actions : ∀ c ∈ w.screen.actions, c = .sendSuccessNoIdle ∨ c = .rejectStagedReview
  shown : keyRows last ⊆ w.screen.rows
  screen : onScreen w.log = w.screen.rows

/-- All the keys have arrived; the last one is still to be accepted. -/
structure KeysComplete (base : Bytes) (keys : List Command) (last : Command)
    (thresholds : List Command) (w : World) : Prop where
  stream : KeyStream base (keys ++ [last]) (thresholds.flatMap (·.data.take 1)) w
  complete : (keys ++ [last]).length = (base.getD 96 0).toNat
  state : (w.global.view SignPublicInformationForIp).state = .threshold
  accepted : AllAccepted keys w
  held : publicKeyRows (w.global.view SignPublicInformationForIp) = keyRows last

/-- The final review is on screen. -/
structure KeysSigning (base : Bytes) (keys : List Command) (last : Command)
    (thresholds : List Command) (w : World) : Prop where
  complete : KeysComplete base keys last thresholds w
  actions : ∀ c ∈ w.screen.actions, c = .sendSuccessNoIdle ∨ c ∈ signFlowShared
  shown : keyRows last ⊆ w.screen.rows

omit [Platform] in
theorem AllAccepted.of_eq {keys : List Command} (h : AllAccepted keys s)
    (heq : Concordium.accepted t.log = Concordium.accepted s.log) : AllAccepted keys t :=
  fun cmd hc r hr => heq ▸ h cmd hc r hr

omit [Platform] in
/-- The key and its type are prepared for the screen and hashed. -/
theorem wp_hashKey {ctx : SignPublicInformationForIp} {rest : Buf 68 → Buf 3 → App Unit}
    (hgo : ∀ publicKey keyType t, 34 ≤ cmd.data.length → HashedOnto (keyRecord cmd) s t →
      [row "Public key" publicKey.text, row "Key type" keyType.text] = keyRows cmd →
      wp (rest publicKey keyType) Q (fun _ _ => True) t) :
    wp (do
      throwIf (cmd.data.length < 1) swoIncorrectData
      let keyTypeByte ← slice cmd.data 0 1
      let keyType ← formatHexInto keyTypeByte ctx.keyType swoIncorrectData
      let keyType ← memmove keyType 2 [0]
      updateHash keyTypeByte
      let cdata ← advance cmd.data 1
      let (_, cdata) ← hashField cdata 1
      let (publicKeyBytes, _) ← hashField cdata 32
      let publicKey ← toPaginatedHex publicKeyBytes ctx.publicKey
      rest publicKey keyType) Q (fun _ _ => True) s := by
  simp only [wp_bind, wp_throwIf, wp_slice, List.drop_zero, implies_true, true_and, and_true]
  intro hlen _
  have htype : (cmd.data.take 1).length = 1 := by
    rw [List.length_take]
    omega
  refine wp_formatHexInto (by rw [htype]) fun keyType hkeyType => ?_
  simp only [wp_bind, wp_memmove, implies_true, and_true]
  intro hw
  refine wp_updateHash_onto fun t ht => ?_
  simp only [wp_bind, wp_advance, implies_true, and_true]
  intro _
  refine wp_hashField (fun u hindex hu => ?_) fun _ => trivial
  rw [wp_bind]
  refine wp_hashField (fun v hkey hv => ?_) fun _ => trivial
  dsimp only at hkey hindex
  rw [List.drop_drop] at hkey
  have hlength : 34 ≤ cmd.data.length := by
    rw [List.length_drop] at hkey
    omega
  have hkeyBytes : ((cmd.data.drop (1 + 1)).take 32).length = 32 := by
    rw [List.length_take, List.length_drop]
    omega
  rw [wp_bind]
  dsimp only
  rw [List.drop_drop]
  refine wp_toPaginatedHex (fun hnil => by rw [hnil] at hkeyBytes; cases hkeyBytes)
    (by rw [hkeyBytes]; decide) (by rw [hkeyBytes]; decide) fun publicKey hpublicKey => ?_
  refine hgo publicKey _ v hlength ?_ ?_
  · have hrecord : keyRecord cmd = cmd.data.take 1 ++ ((cmd.data.drop 1).take 1 ++
        (cmd.data.drop (1 + 1)).take 32) := by
      rw [keyRecord, show 34 = 1 + (1 + 32) from rfl, List.take_add, List.take_add, List.drop_drop]
    have hchain := (ht.trans hu).trans hv
    dsimp only at hchain
    rw [List.drop_drop, List.append_assoc, ← hrecord] at hchain
    exact hchain
  · have ended (k : ℕ) (hk : k = keyType.text.length) (hw : k + [(0 : UInt8)].length ≤ 3) :
        (keyType.write k [0] hw).text = keyType.text := by
      subst hk
      exact (text_append List.not_mem_nil hw).trans (List.append_nil _)
    rw [hpublicKey, ended 2 (by rw [hkeyType, hexUpper_length, htype]) hw, hkeyType]
    rfl

/-- A key packet: the key is reviewed, or kept for the final review if it is the
    last. -/
theorem wp_publicInfoVerificationKey {base : Bytes} {keys : List Command}
    (h : KeyStream base keys [] s) (hacc : AllAccepted keys s)
    (hstate : (s.global.view SignPublicInformationForIp).state = .verificationKey)
    (hmore : ∀ t, t.latch = s.latch → t.replyPending = s.replyPending →
      KeyReviewing base keys cmd t → Q () t)
    (hlast : ∀ t, t.replyPending = false → KeysComplete base keys cmd [] t → Q () t) :
    wp (publicInfoVerificationKey cmd) Q (fun _ _ => True) s := by
  unfold publicInfoVerificationKey
  rw [wp_bind, wp_getCtx, wp_bind, wp_throwIf]
  refine ⟨fun _ => trivial, fun hleft => ?_⟩
  refine wp_hashKey fun publicKey keyType t hlength ht hrows => ?_
  have hfits := h.fits
  have hcounter := h.counter
  have hcount : (keys ++ [cmd]).length = keys.length + 1 := List.length_append
  have stream {u : World} {ctx : SignPublicInformationForIp}
      (hg : u.global = Member.inject ctx)
      (hctx : ctx.publicKeysLength =
        (s.global.view SignPublicInformationForIp).publicKeysLength - 1)
      (hhash : u.txState.hash = t.txState.hash) : KeyStream base (keys ++ [cmd]) [] u := by
    refine ⟨h.base_length, fun c hc => ?_, by omega, ?_, ?_⟩
    · rcases List.mem_append.mp hc with hc | hc
      · exact h.whole c hc
      · rwa [List.mem_singleton.mp hc]
    · rw [hg, InstructionContext.view_inject, hctx]
      omega
    · rw [hhash, ht.hash, h.hashed]
      simp only [List.flatMap_append, List.flatMap_singleton, List.append_nil, List.append_assoc]
  refine wp_if (fun hmany : 0 < (s.global.view SignPublicInformationForIp).publicKeysLength - 1 =>
    ?_) fun hdone : ¬ 0 < (s.global.view SignPublicInformationForIp).publicKeysLength - 1 => ?_
  · rw [wp_bind, wp_setCtx]
    have shown {intro : Bool} : wp (uiPublicInformationContinue intro) Q (fun _ _ => True)
        { t with global := Member.inject ({ s.global.view SignPublicInformationForIp with
          showIntro := false
          publicKeysLength := (s.global.view SignPublicInformationForIp).publicKeysLength - 1
          publicKey := publicKey
          keyType := keyType } : SignPublicInformationForIp) } := by
      refine wp_uiPublicInformationContinue fun rows actions hsub hactions => ?_
      refine hmore _ ht.latch ht.reply ⟨stream rfl rfl rfl, by omega, ?_, ?_, hactions, ?_, ?_⟩
      · rw [InstructionContext.view_inject]
        exact hstate
      · exact hacc.of_eq (by simp [Event.accepts, ht.accepted])
      · rw [InstructionContext.view_inject] at hsub
        rw [← hrows]
        exact hsub
      · simp [Event.accepts, World.screenOf]
    exact wp_if (fun _ => shown) fun _ => shown
  · rw [wp_bind, wp_setCtx]
    refine hlast _ rfl ⟨stream rfl rfl rfl, by omega, ?_, ?_, ?_⟩
    · rw [InstructionContext.view_inject]
    · exact hacc.of_eq (by simp [Event.accepts, ht.accepted])
    · rw [InstructionContext.view_inject]
      exact hrows

/-- The threshold: the final review starts. -/
theorem wp_publicInfoThreshold {base : Bytes} {keys thresholds : List Command} {last : Command}
    (h : KeysComplete base keys last thresholds s)
    (hsign : ∀ t, t.latch = s.latch → t.replyPending = s.replyPending →
      KeysSigning base keys last (thresholds ++ [cmd]) t → Q () t) :
    wp (publicInfoThreshold cmd) Q (fun _ _ => True) s := by
  unfold publicInfoThreshold
  rw [wp_bind, wp_getCtx, wp_bind]
  refine wp_hashField (fun t hlen ht => ?_) fun _ => trivial
  change wp (binToDec 4 (beNat (cmd.data.take 1)) >>= fun text => memmove _ 0 text >>= _) _ _ _
  rw [wp_bind]
  refine wp_reads _ (fun text _ => ?_) fun _ _ => trivial
  simp only [wp_bind, wp_memmove, wp_setCtx, implies_true, and_true]
  intro hw
  have shown {complete : Bool} : wp (uiPublicInformationSign complete) Q (fun _ _ => True)
      { t with global := Member.inject ({ s.global.view SignPublicInformationForIp with
        threshold := (s.global.view SignPublicInformationForIp).threshold.write 0 text hw } :
          SignPublicInformationForIp) } := by
    refine wp_uiPublicInformationSign fun rows actions hsub hactions => ?_
    rw [InstructionContext.view_inject] at hsub
    refine hsign _ ht.latch ht.reply
      ⟨⟨⟨h.stream.base_length, h.stream.whole, h.stream.fits, ?_, ?_⟩, h.complete, ?_, ?_, ?_⟩,
        hactions, ?_⟩
    · rw [InstructionContext.view_inject]
      exact h.stream.counter
    · change t.txState.hash = _
      rw [ht.hash, h.stream.hashed]
      simp only [List.flatMap_append, List.flatMap_singleton, List.append_assoc]
    · rw [InstructionContext.view_inject]
      exact h.state
    · exact h.accepted.of_eq (by simp [Event.accepts, ht.accepted])
    · rw [InstructionContext.view_inject]
      exact h.held
    · rw [← h.held]
      exact hsub
  exact wp_if (fun _ => shown) fun _ => shown

theorem dispatch_publicInfo {isInitialCall : Bool} (hins : cmd.ins = insPublicInfoForIp) :
    dispatchInstruction cmd isInitialCall =
      withData cmd (handleSignPublicInformationForIp cmd isInitialCall) := by
  unfold dispatchInstruction
  rw [hins]
  rfl

theorem wp_publicInfoNext (hins : cmd.ins = insPublicInfoForIp) (hc : cmd.data ≠ [])
    (hinitial : cmd.p1 = SignPublicInformationForIp.p1Initial →
      (s.global.view SignPublicInformationForIp).state ≠ .initial)
    (hkey : cmd.p1 = SignPublicInformationForIp.p1VerificationKey →
      (s.global.view SignPublicInformationForIp).state = .verificationKey →
      wp (publicInfoVerificationKey cmd) Q E s)
    (hthreshold : cmd.p1 = SignPublicInformationForIp.p1Threshold →
      (s.global.view SignPublicInformationForIp).state = .threshold →
      wp (publicInfoThreshold cmd) Q E s)
    (hthrow : ∀ sw, sw ≠ swoSuccess → E (.statusWord sw) s) :
    wp (dispatchInstruction cmd false) Q E s := by
  rw [dispatch_publicInfo hins]
  unfold withData handleSignPublicInformationForIp
  refine wp_if (fun hlc => absurd (List.length_eq_zero_iff.mp hlc) hc) fun _ => ?_
  rw [if_neg Bool.false_ne_true]
  change wp (getCtx SignPublicInformationForIp >>= _) _ _ _
  rw [wp_bind, wp_getCtx]
  refine wp_if (fun h => absurd h.2 (hinitial h.1)) fun _ => ?_
  refine wp_if (fun h => hkey h.1 h.2) fun _ => ?_
  exact wp_if (fun h => hthreshold h.1 h.2) fun _ => hthrow _ (by decide)

/-! ## The flow -/

/-- Where the flow stands between packets, by the packets that carried data. -/
inductive KeyStage (w : World) : List Command → Prop where
  | unopened (hs : (w.global.view SignPublicInformationForIp).state = .unset) : KeyStage w []
  | keys {first : Command} {keys : List Command} {base : Bytes} (h : KeyStream base keys [] w)
    (hs : (w.global.view SignPublicInformationForIp).state = .verificationKey)
    (hacc : AllAccepted keys w) (missing : keys.length = (base.getD 96 0).toNat → keys = []) :
    KeyStage w (first :: keys)
  | complete {first last : Command} {keys thresholds : List Command} {base : Bytes}
    (h : KeysComplete base keys last thresholds w) :
    KeyStage w (first :: (keys ++ last :: thresholds))

/-- Where it stands under review. -/
inductive KeyReview (w : World) : List Command → Prop where
  | key {first last : Command} {keys : List Command} {base : Bytes}
    (h : KeyReviewing base keys last w) : KeyReview w (first :: (keys ++ [last]))
  | sign {first last : Command} {keys thresholds : List Command} {base : Bytes}
    (h : KeysSigning base keys last thresholds w) (hne : thresholds ≠ []) :
    KeyReview w (first :: (keys ++ last :: thresholds))

/-- The flow waits for a packet. -/
def KeysBetween (ps : List Command) (w : World) : Prop := KeyStage w (carried ps)

/-- A key or the whole information is under review. -/
def KeysUnderReview (ps : List Command) (w : World) : Prop := KeyReview w (carried ps)

theorem KeyStream.still {base tail : Bytes} {keys : List Command} (h : KeyStream base keys tail s)
    (hg : t.global = s.global) (hhash : t.txState.hash = s.txState.hash) :
    KeyStream base keys tail t :=
  ⟨h.base_length, h.whole, h.fits, by rw [hg]; exact h.counter, hhash.trans h.hashed⟩

theorem KeyStage.still {ps : List Command} (h : KeyStage s ps) (hg : t.global = s.global)
    (hhash : t.txState.hash = s.txState.hash)
    (hacc : Concordium.accepted t.log = Concordium.accepted s.log) : KeyStage t ps := by
  cases h with
  | unopened hs => exact .unopened (hg ▸ hs)
  | keys h hs ha missing => exact .keys (h.still hg hhash) (hg ▸ hs) (ha.of_eq hacc) missing
  | complete h =>
    exact .complete ⟨h.stream.still hg hhash, h.complete, hg ▸ h.state, h.accepted.of_eq hacc,
      hg ▸ h.held⟩

theorem KeyStage.not_initial {ps : List Command} (h : KeyStage s ps) :
    (s.global.view SignPublicInformationForIp).state ≠ .initial := by
  cases h with
  | unopened hs => rw [hs]; exact PublicInfoForIpState.noConfusion
  | keys _ hs => rw [hs]; exact PublicInfoForIpState.noConfusion
  | complete h => rw [h.state]; exact PublicInfoForIpState.noConfusion

/-- A packet behind the first one. -/
theorem KeyStage.flowing {ps : List Command} (h : KeyStage s (carried ps))
    (hins : cmd.ins = insPublicInfoForIp) (hc : cmd.data ≠ []) (hp : s.replyPending = true) :
    wp (dispatchInstruction cmd false)
      (fun _ t => Flowing insPublicInfoForIp (KeysBetween (ps ++ [cmd]))
        (KeysUnderReview (ps ++ [cmd])) t) (fun _ _ => True) s := by
  have hcarried : carried (ps ++ [cmd]) = carried ps ++ [cmd] := carried_snoc hc
  refine wp_publicInfoNext hins hc (fun _ => h.not_initial) (fun _ hstate => ?_)
    (fun _ hstate => ?_) fun _ _ => trivial
  · generalize carried ps = qs at h hcarried
    cases h with
    | unopened hs => cases hs.symm.trans hstate
    | complete h => cases h.state.symm.trans hstate
    | @keys first keys base h _ hacc missing =>
      refine wp_publicInfoVerificationKey h hacc hstate (fun t _ htp ht => ?_) fun t htp ht => ?_
      · refine .of_review (htp.trans hp) ?_
        unfold KeysUnderReview
        rw [hcarried]
        exact .key ht
      · refine .of_between htp ?_
        unfold KeysBetween
        rw [hcarried]
        exact .complete ht
  · generalize carried ps = qs at h hcarried
    cases h with
    | unopened hs => cases hs.symm.trans hstate
    | keys _ hs => cases hs.symm.trans hstate
    | @complete first last keys thresholds base h =>
      refine wp_publicInfoThreshold h fun t _ htp ht => .of_review (htp.trans hp) ?_
      unfold KeysUnderReview
      rw [hcarried, List.cons_append, List.append_assoc, List.cons_append]
      exact .sign ht (List.append_ne_nil_of_right_ne_nil _ (List.cons_ne_nil _ _))

/-- The user goes on from a key, or signs. -/
theorem KeyReview.answered {ps : List Command} {c : Callback} (h : KeyReview s ps)
    (hc : c ∈ s.screen.actions) :
    wp (runCallback c) (fun _ t => t.latch = none ∨ t.replyPending = false ∧ KeyStage t ps)
      (fun _ _ => True) (s.activated c) := by
  cases h with
  | @key first last keys base h =>
    rcases h.actions c hc with rfl | rfl
    · change wp (ioSendResponse [] swoSuccess) _ _ _
      rw [wp_ioSendResponse]
      refine .inr ⟨rfl, .keys (h.stream.still rfl rfl) h.state (fun cmd hmem r hr => ?_)
        fun heq => absurd heq h.more.ne⟩
      have haccepted : Concordium.accepted ((s.activated .sendSuccessNoIdle).answered []
          swoSuccess).log = Concordium.accepted s.log ++ onScreen s.log := by
        simp [World.answered, World.activated, Event.accepts, Callback.isIdle,
          Callback.isRejection]
      refine haccepted ▸ List.mem_append.mpr ?_
      rcases List.mem_append.mp hmem with hmem | hmem
      · exact .inl (h.accepted cmd hmem r hr)
      · rw [List.mem_singleton.mp hmem] at hr
        exact .inr (h.screen ▸ h.shown hr)
    · change wp rejectStagedReview _ _ _
      unfold rejectStagedReview
      rw [wp_bind, wp_releaseInstruction, wp_sendUserRejection]
      exact .inl rfl
  | @sign first last keys thresholds base h hne =>
    rcases h.actions c hc with rfl | hc
    · change wp (ioSendResponse [] swoSuccess) _ _ _
      rw [wp_ioSendResponse]
      refine .inr ⟨rfl, .complete ⟨h.complete.stream.still rfl rfl, h.complete.complete,
        h.complete.state, fun cmd hmem r hr => ?_, h.complete.held⟩⟩
      have haccepted : Concordium.accepted ((s.activated .sendSuccessNoIdle).answered []
          swoSuccess).log = Concordium.accepted s.log ++ onScreen s.log := by
        simp [World.answered, World.activated, Event.accepts, Callback.isIdle,
          Callback.isRejection]
      exact haccepted ▸ List.mem_append_left _ (h.complete.accepted cmd hmem r hr)
    · exact wp_mono (fun _ _ ht => .inl ht) (fun _ _ hE => hE) (wp_signFlowShared hc)

theorem keyRules : FlowRules insPublicInfoForIp KeysBetween KeysUnderReview where
  still ps s t hst _ hacc hI := by
    refine KeyStage.still hI ?_ ?_ hacc <;> rw [hst]
  first cmd s hins hl hp hz _ _ _ := by
    have hfresh : (s.global.view SignPublicInformationForIp).state = .unset := by
      rw [hz, InstructionContext.view_zeroed]
      rfl
    rw [dispatch_publicInfo hins]
    by_cases hc : cmd.data = []
    · refine wp_withData (fun _ => .of_between rfl ?_) fun h => absurd hc h
      unfold KeysBetween
      rw [← List.nil_append [cmd], carried_empty hc]
      exact .unopened hfresh
    · refine wp_withData (fun h => absurd h hc) fun _ => ?_
      unfold handleSignPublicInformationForIp
      rw [if_pos rfl, wp_bind, wp_modifyCtx]
      refine wp_if (fun _ => ?_) fun _ => wp_if (fun h => ?_) fun _ => wp_if (fun h => ?_)
        fun _ => trivial
      · refine wp_mono (fun _ t ht => ?_) (fun _ _ h => h) wp_publicInfoInitial
        obtain ⟨hp', hs, base, h⟩ := ht
        refine .of_between hp' ?_
        unfold KeysBetween
        rw [← List.nil_append [cmd], carried_snoc hc]
        exact .keys h hs (by simp [AllAccepted]) fun _ => rfl
      · have hstate := h.2
        rw [InstructionContext.view_inject] at hstate
        cases hstate
      · have hstate := h.2
        rw [InstructionContext.view_inject] at hstate
        cases hstate
  next ps cmd s hins hl hp hI := by
    by_cases hc : cmd.data = []
    · rw [dispatch_publicInfo hins]
      refine wp_withData (fun _ => .of_between rfl ?_) fun h => absurd hc h
      unfold KeysBetween
      rw [carried_empty hc]
      exact KeyStage.still hI rfl rfl (by simp [World.answered, Event.accepts])
    · exact KeyStage.flowing hI hins hc hp
  answer ps c s hc hl hp hr := by
    refine wp_mono (fun _ t ht => ?_) (fun _ _ hE => hE) (KeyReview.answered hr hc)
    rcases ht with ht | ⟨htp, ht⟩
    · exact .of_free ht
    · exact .of_between htp ht

/-! ## Every run -/

/-- A key packet that the counter has no room for is refused. -/
theorem refuses_key (hl : w.latch = some insPublicInfoForIp)
    (hcounter : (w.global.view SignPublicInformationForIp).publicKeysLength = 0)
    (hins : cmd.ins = insPublicInfoForIp)
    (hp1 : cmd.p1 = SignPublicInformationForIp.p1VerificationKey) : Refuses w cmd := by
  refine refuses_packet (hins ▸ hl) (dispatch_publicInfo hins) fun hc => ?_
  refine wp_publicInfoNext hins hc (fun h => ?_) (fun _ _ => ?_) (fun h => ?_)
    fun sw hsw => ⟨rfl, sw, hsw, rfl⟩
  · exact absurd (hp1.symm.trans h) (by decide)
  · unfold publicInfoVerificationKey
    rw [wp_bind, wp_getCtx, wp_bind, wp_throwIf]
    exact ⟨fun _ => ⟨rfl, _, by decide, rfl⟩, fun h => absurd hcounter h⟩
  · exact absurd (hp1.symm.trans h) (by decide)

/-- How PUBLIC_INFO_FOR_IP stands after its packets, and what becomes of keys
    beyond the declared ones. -/
structure KeysProgress (packets : List Command) (w : World) : Prop where
  between : w.replyPending = false → KeyStage w (carried packets)
  review : w.replyPending = true → KeyReview w (carried packets)
  beyond : (w.global.view SignPublicInformationForIp).publicKeysLength = 0 →
    ∀ cmd, cmd.ins = insPublicInfoForIp →
      cmd.p1 = SignPublicInformationForIp.p1VerificationKey → Refuses w cmd

/-- What a handler counts down. -/
def remainingCounter (ins : UInt8) (w : World) : ℕ :=
  if ins = insDeployModule then (w.global.view DeployModule).remainingSourceLength
  else if ins = insTransferToPublic then (w.global.view SignTransferToPublic).proofSize
  else (w.global.view SignPublicInformationForIp).publicKeysLength

/-- In every run in which reviews are answered once, the three flows with a
    declared length have hashed what their packets brought, offer to sign when
    that is all that was declared, and take nothing beyond it. -/
theorem declared_streaming {inputs : List Input}
    (hgate : Along Concordium.step Answers World.start inputs)
    (hrun : runInputs World.start inputs = some w) :
    (w.latch = some insDeployModule → ModuleIdle (openPackets inputs) w ∨
      ∃ base got, ModuleReceived (openPackets inputs) got ∧ ModuleStands base got w) ∧
    (w.latch = some insTransferToPublic → ProofProgress (openPackets inputs) w) ∧
    (w.latch = some insPublicInfoForIp → KeysProgress (openPackets inputs) w) ∧
    ∀ ins ∈ [insDeployModule, insPublicInfoForIp], w.latch = some ins → OffersSigning w →
      remainingCounter ins w = 0 := by
  refine ⟨module_streaming hgate hrun, proof_streaming hgate hrun, fun hl => ?_,
    fun ins hins hl ho => ?_⟩
  · have hflow := keyRules.run hgate hrun
    exact ⟨hflow.between hl, hflow.review hl, fun hcounter cmd hins hp1 =>
      refuses_key hl hcounter hins hp1⟩
  · rcases List.mem_pair.mp hins with rfl | rfl
    · obtain ⟨base, got, -, hr, -⟩ := (moduleRules.run hgate hrun).review hl ho.1
      have hcount : (w.global.view DeployModule).remainingSourceLength = 0 := by
        rw [hr.stream.remaining, hr.complete, Nat.sub_self]
      exact hcount
    · have hr : KeyReview w (carried (openPackets inputs)) :=
        (keyRules.run hgate hrun).review hl ho.1
      have hcount : (w.global.view SignPublicInformationForIp).publicKeysLength = 0 := by
        generalize carried (openPackets inputs) = qs at hr
        cases hr with
        | key h => rcases h.actions _ ho.2 with h | h <;> cases h
        | sign h => rw [h.complete.stream.counter, h.complete.complete, Nat.sub_self]
      exact hcount

end Keys

/-- A transfer to public with three bytes of proofs. -/
def transferToPublicInputs : List Input :=
  [.apdu {
      ins := insTransferToPublic
      p1 := SignTransferToPublic.p1Initial
      p2 := 0
      data := 6 :: [44, 919, 0, 0, 0, 0].flatMap (toBe 4) ++
        (List.replicate 32 7 ++ toBe 8 1 ++ toBe 8 500 ++ toBe 4 4 ++ toBe 8 9) ++
        [kindTransferToPublic]
      lc_le := by simp },
    .apdu {
      ins := insTransferToPublic
      p1 := SignTransferToPublic.p1RemainingAmount
      p2 := 0
      data := List.replicate 192 1 ++ toBe 8 1000000 ++ List.replicate 32 2 ++ toBe 8 0 ++ toBe 2 3
      lc_le := by
        simp only [List.length_append, List.length_replicate, toBe_length]
        decide },
    .apdu ⟨insTransferToPublic, SignTransferToPublic.p1Proof, 0, [1, 2, 3], by decide⟩]

/-- When the proofs are complete, the counter still stands at their last
    packet. -/
theorem proof_counter_left :
    letI : Platform := sdkDevice .nbgl
    ∃ w, runInputs World.start transferToPublicInputs = some w ∧
      Along Concordium.step Answers World.start transferToPublicInputs ∧
      w.latch = some insTransferToPublic ∧ OffersSigning w ∧
      remainingCounter insTransferToPublic w = 3 := by
  let : Platform := sdkDevice .nbgl
  have hrun : (runInputs World.start transferToPublicInputs).any (fun w =>
      decide (w.latch = some insTransferToPublic ∧ w.replyPending = true ∧
        .buildAndSignTransactionHash ∈ w.screen.actions ∧
        (w.global.view SignTransferToPublic).proofSize = 3)) = true := by
    decide +kernel
  obtain ⟨w, hw, hrun⟩ := (Option.any_eq_true _ _).mp hrun
  obtain ⟨hl, hp, hoffer, hcounter⟩ := of_decide_eq_true hrun
  exact ⟨w, hw, by decide +kernel, hl, ⟨hp, hoffer⟩, hcounter⟩

/-- A module of five bytes in two packets. -/
def deployModuleInputs : List Input :=
  [.apdu {
      ins := insDeployModule
      p1 := 0
      p2 := 0
      data := 6 :: [44, 919, 0, 0, 0, 0].flatMap (toBe 4) ++
        (List.replicate 32 7 ++ toBe 8 1 ++ toBe 8 500 ++ toBe 4 4 ++ toBe 8 9) ++
        kindDeployModule :: toBe 4 1 ++ toBe 4 5
      lc_le := by simp },
    .apdu ⟨insDeployModule, 1, 0, [1, 2, 3], by decide⟩,
    .apdu ⟨insDeployModule, 1, 0, [4, 5], by decide⟩]

/-- Two keys for an identity provider, the first of them accepted. -/
def publicInfoInputs : List Input :=
  [.apdu {
      ins := insPublicInfoForIp
      p1 := SignPublicInformationForIp.p1Initial
      p2 := 0
      data := 6 :: [44, 919, 0, 0, 0, 0].flatMap (toBe 4) ++ List.replicate 96 1 ++ [2]
      lc_le := by simp },
    .apdu {
      ins := insPublicInfoForIp
      p1 := SignPublicInformationForIp.p1VerificationKey
      p2 := 0
      data := [0, 0] ++ List.replicate 32 2
      lc_le := by simp },
    .activate .sendSuccessNoIdle,
    .apdu {
      ins := insPublicInfoForIp
      p1 := SignPublicInformationForIp.p1VerificationKey
      p2 := 0
      data := [0, 0] ++ List.replicate 32 3
      lc_le := by simp },
    .apdu ⟨insPublicInfoForIp, SignPublicInformationForIp.p1Threshold, 0, [2], by decide⟩]

/-- The rules at work on each of the three flows, up to its review. -/
theorem declared_streaming_complete :
    letI : Platform := sdkDevice .nbgl
    (∃ w, runInputs World.start deployModuleInputs = some w ∧ OffersSigning w ∧
      (∃ base got, ModuleReceived (openPackets deployModuleInputs) got ∧
        ModuleReviewing base got w) ∧ remainingCounter insDeployModule w = 0) ∧
    (∃ w, runInputs World.start transferToPublicInputs = some w ∧ OffersSigning w ∧
      ProofProgress (openPackets transferToPublicInputs) w) ∧
    ∃ w, runInputs World.start publicInfoInputs = some w ∧ OffersSigning w ∧
      KeysProgress (openPackets publicInfoInputs) w ∧
        remainingCounter insPublicInfoForIp w = 0 := by
  let : Platform := sdkDevice .nbgl
  have offered (ins : UInt8) (inputs : List Input)
      (hrun : (runInputs World.start inputs).any (fun w => decide (w.latch = some ins ∧
        w.replyPending = true ∧ .buildAndSignTransactionHash ∈ w.screen.actions)) = true) :
      ∃ w, runInputs World.start inputs = some w ∧ w.latch = some ins ∧ OffersSigning w := by
    obtain ⟨w, hw, hrun⟩ := (Option.any_eq_true _ _).mp hrun
    obtain ⟨hl, hp, hoffer⟩ := of_decide_eq_true hrun
    exact ⟨w, hw, hl, hp, hoffer⟩
  refine ⟨?_, ?_, ?_⟩
  · obtain ⟨w, hw, hl, ho⟩ := offered insDeployModule deployModuleInputs (by decide +kernel)
    obtain ⟨hmodule, -, -, hzero⟩ := declared_streaming (by decide +kernel) hw
    rcases hmodule hl with hidle | ⟨base, got, hgot, hstands⟩
    · exact absurd (ho.1.symm.trans hidle.reply) (by decide)
    · exact ⟨w, hw, ho, ⟨base, got, hgot, hstands.reviewing ho.1⟩, hzero _ (by decide) hl ho⟩
  · obtain ⟨w, hw, hl, ho⟩ := offered insTransferToPublic transferToPublicInputs (by decide +kernel)
    exact ⟨w, hw, ho, (declared_streaming (by decide +kernel) hw).2.1 hl⟩
  · obtain ⟨w, hw, hl, ho⟩ := offered insPublicInfoForIp publicInfoInputs (by decide +kernel)
    obtain ⟨-, -, hkeys, hzero⟩ := declared_streaming (by decide +kernel) hw
    exact ⟨w, hw, ho, hkeys hl, hzero _ (by decide) hl ho⟩

end Concordium
