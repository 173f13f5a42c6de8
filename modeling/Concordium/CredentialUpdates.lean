/-
  The credentials of an update.

  An update brings its credentials one after the other, and the context of the
  one before is still there when the next one is read.
-/
import Concordium.CredentialRows

namespace Concordium

open Buffer Union Wp Runs

set_option synthInstance.maxSize 1000000
set_option synthInstance.maxHeartbeats 100000

section Updates
variable [Platform] {p q r : CredentialPlace} {cmd : Command} {cmds : List Command}
  {s t w : World}

/-! ## Stages -/

/-- How far the update has come. -/
def updateStage (w : World) : UpdateCredentialState :=
  (w.global.view SignCredentialDeploymentContext).updateCredentialState

/-- How many credentials are still to come. -/
def credentialsLeft (w : World) : ℕ :=
  (w.global.view SignCredentialDeploymentContext).credentialDeploymentCount

/-- What has been read of an update. -/
structure UpdateAt (cmds : List Command) (p : CredentialPlace) (w : World) : Prop where
  place : CredentialAt p (w.global.view SignCredentialDeploymentContext)
  read : PlaceRead insSignUpdateCredential cmds p
  uninitial : p.state ≠ .initial
  left : updateStage w = .credentialIndex ∨ updateStage w = .credential → 0 < credentialsLeft w
  recorded : updateStage w = .credential → p.behindThresholds → p.Recorded w.txState.hash

/-- An update waits for a packet. -/
def UpdateBetween (ps : List Command) (w : World) : Prop := ∃ p, UpdateAt (carried ps) p w

/-- A review is on screen: of the update itself, or of a credential. -/
inductive UpdateReview (cmds : List Command) (w : World) : Prop where
  | plain {p : CredentialPlace} (h : UpdateAt cmds p w)
    (actions : ∀ c ∈ w.screen.actions, c = .sendSuccessNoIdle ∨ c = .rejectStagedReview ∨
      c ∈ signFlowShared)
  | credential {q r : CredentialPlace}
    (place : CredentialAt q (w.global.view SignCredentialDeploymentContext))
    (review : CredentialReview q r w) (read : PlaceRead insSignUpdateCredential cmds r)
    (uninitial : q.state ≠ .initial) (stage : updateStage w = .credential)
    (left : 0 < credentialsLeft w) (recorded : r.behindThresholds → r.Recorded w.txState.hash)

/-- The packets of an update are under review. -/
def UpdateUnderReview (ps : List Command) (w : World) : Prop := UpdateReview (carried ps) w

theorem dispatch_updateCredential {isInitialCall : Bool}
    (hins : cmd.ins = insSignUpdateCredential) : dispatchInstruction cmd isInitialCall =
      withData cmd (handleSignUpdateCredential cmd isInitialCall) := by
  unfold dispatchInstruction
  rw [hins]
  rfl

/-! ## Reviews of the update -/

/-- A review of the update on screen. -/
def World.updateReviewed (s : World) (rows : List Row) (actions : List Callback) : World :=
  { s with
    screen := s.screenOf rows actions, log := s.log ++ [.drawn (s.screenOf rows actions)] }

/-- The steps of a review of the update. -/
def UpdateActions (actions : List Callback) : Prop :=
  ∀ c ∈ actions, c = .sendSuccessNoIdle ∨ c = .rejectStagedReview ∨ c ∈ signFlowShared

theorem wp_uiSignUpdateCredentialInitialDisplay {Q : Unit → World → Prop}
    {E : Exception → World → Prop}
    (h : ∀ rows actions, UpdateActions actions → Q () (s.updateReviewed rows actions)) :
    wp uiSignUpdateCredentialInitialDisplay Q E s := by
  unfold uiSignUpdateCredentialInitialDisplay
  rw [wp_bind, wp_get]
  cases hb : (Platform.backend : Backend) with
  | nbgl =>
    simp only [nbglStagedReview, nbglReview]
    rw [wp_showScreen]
    exact h _ _ (by simp [UpdateActions])
  | bagl =>
    dsimp only
    rw [wp_showScreen]
    exact h _ _ (by simp [UpdateActions])

theorem wp_uiSignUpdateCredentialIdDisplay {Q : Unit → World → Prop}
    {E : Exception → World → Prop}
    (h : ∀ rows actions, UpdateActions actions → Q () (s.updateReviewed rows actions)) :
    wp uiSignUpdateCredentialIdDisplay Q E s := by
  unfold uiSignUpdateCredentialIdDisplay
  rw [wp_bind, wp_getCtx]
  cases hb : (Platform.backend : Backend) with
  | nbgl =>
    simp only [nbglStagedReview, nbglReview]
    rw [wp_showScreen]
    exact h _ _ (by simp [UpdateActions])
  | bagl =>
    dsimp only
    rw [wp_showScreen]
    exact h _ _ (by simp [UpdateActions])

theorem wp_uiSignUpdateCredentialThresholdDisplay {Q : Unit → World → Prop}
    {E : Exception → World → Prop}
    (h : ∀ rows actions, UpdateActions actions → Q () (s.updateReviewed rows actions)) :
    wp uiSignUpdateCredentialThresholdDisplay Q E s := by
  unfold uiSignUpdateCredentialThresholdDisplay
  rw [wp_bind, wp_getCtx]
  cases hb : (Platform.backend : Backend) with
  | nbgl =>
    simp only [nbglSignReview, nbglReview]
    rw [wp_showScreen]
    exact h _ _ fun c hc => .inr (.inr hc)
  | bagl =>
    dsimp only
    rw [wp_showScreen]
    exact h _ _ fun c hc => .inr (.inr hc)

/-! ## Packets of the update -/

/-- The fields of an update are not those of its credentials. -/
theorem UpdateAt.besides {ctx : SignCredentialDeploymentContext}
    (h : UpdateAt cmds p s) (hof : ofCredential insSignUpdateCredential cmd = false)
    (hg : t.global = Member.inject ctx) (hplace : CredentialAt p ctx)
    (hstage : ctx.updateCredentialState ≠ .credential)
    (hleft : ctx.updateCredentialState = .credentialIndex → 0 < ctx.credentialDeploymentCount) :
    UpdateAt (cmds ++ [cmd]) p t := by
  have hview : t.global.view SignCredentialDeploymentContext = ctx := by
    rw [hg, InstructionContext.view_inject]
  refine ⟨hview ▸ hplace, h.read.other hof, h.uninitial, fun hno => ?_, fun hno => ?_⟩
  · unfold updateStage at hno
    unfold credentialsLeft
    rw [hview] at hno ⊢
    exact hleft (hno.resolve_right hstage)
  · unfold updateStage at hno
    rw [hview] at hno
    exact absurd hno hstage

/-- The flow behind a packet. -/
def UpdateGoal (cmds : List Command) (t : World) : Prop :=
  (t.replyPending = false ∧ ∃ p, UpdateAt cmds p t) ∨ (t.replyPending = true ∧ UpdateReview cmds t)

theorem UpdateAt.reviewed {rows : List Row} {actions : List Callback} (h : UpdateAt cmds p s)
    (hp : s.replyPending = true) (hactions : UpdateActions actions) :
    UpdateGoal cmds (s.updateReviewed rows actions) :=
  .inr ⟨hp, .plain ⟨h.place, h.read, h.uninitial, h.left, h.recorded⟩ hactions⟩

theorem wp_updateCredentialInitial (h : UpdateAt cmds p s) (hp : s.replyPending = true)
    (hof : ofCredential insSignUpdateCredential cmd = false) :
    wp (updateCredentialInitial cmd) (fun _ t => UpdateGoal (cmds ++ [cmd]) t) (fun _ _ => True)
      s := by
  unfold updateCredentialInitial
  rw [wp_bind]
  refine wp_parseDerivationPath (fun _ _ => trivial) fun dp log _ => ?_
  simp only [wp_bind, wp_advance, wp_sha256Init, implies_true, and_true]
  intro _
  refine wp_hashAccountTransactionHeaderAndKind (fun _ _ => trivial) (fun _ _ => trivial)
    fun account log' _ _ _ _ => ?_
  rw [wp_bind, wp_advance]
  refine ⟨fun _ => ?_, fun _ => trivial⟩
  rw [wp_bind]
  refine wp_hashField (fun t hlen ht => ?_) fun _ => trivial
  dsimp only
  rw [wp_bind, wp_modifyCtx]
  refine wp_uiSignUpdateCredentialInitialDisplay fun rows actions hactions =>
    UpdateAt.reviewed (p := p) ?_ (ht.reply.trans hp) hactions
  have hview : t.global.view SignCredentialDeploymentContext =
      s.global.view SignCredentialDeploymentContext := by
    rw [ht.global]
  refine h.besides hof rfl ?_ ?_ fun hindex => ?_
  · rw [hview]
    exact { h.place with state := h.place.state }
  · dsimp only
    split_ifs <;> exact UpdateCredentialState.noConfusion
  · dsimp only at hindex ⊢
    by_cases hz : beNat (List.take 1 (List.drop 61 (List.drop
        (1 + (cmd.data.getD 0 0).toNat * 4) cmd.data))) = 0
    · rw [if_pos hz] at hindex
      cases hindex
    · exact Nat.pos_of_ne_zero hz

theorem wp_updateCredentialIndex (h : UpdateAt cmds p s)
    (hstage : updateStage s = .credentialIndex)
    (hof : ofCredential insSignUpdateCredential cmd = false) :
    wp (updateCredentialIndex cmd) (fun _ t => UpdateGoal (cmds ++ [cmd]) t)
      (fun _ _ => cmd.data.length < 1) s := by
  unfold updateCredentialIndex
  rw [wp_bind]
  refine wp_hashField (fun t hlen ht => ?_) fun hlen => hlen
  rw [wp_bind, wp_modifyCtx]
  refine .inl ⟨rfl, { p with state := .verificationKeysLength }, ?_⟩
  have hcounted : ({ p with state := .verificationKeysLength } : CredentialPlace).Counted :=
    CredentialPlace.counted_of_state ProtocolState.noConfusion ProtocolState.noConfusion
      ProtocolState.noConfusion ProtocolState.noConfusion
  refine ⟨?_, (h.read.other hof).same rfl rfl rfl fun _ => hcounted, ProtocolState.noConfusion,
    fun _ => ?_, fun _ hno => hno.elim⟩
  · rw [InstructionContext.view_inject, ht.global]
    exact { h.place with state := rfl }
  · have hleft := h.left (.inl hstage)
    unfold credentialsLeft at hleft ⊢
    rw [InstructionContext.view_inject, ht.global]
    exact hleft

theorem wp_updateCredentialIdCount (h : UpdateAt cmds p s)
    (hof : ofCredential insSignUpdateCredential cmd = false) :
    wp (updateCredentialIdCount cmd) (fun _ t => UpdateGoal (cmds ++ [cmd]) t) (fun _ _ => True)
      s := by
  unfold updateCredentialIdCount
  rw [wp_bind]
  refine wp_hashField (fun t hlen ht => ?_) fun _ => trivial
  dsimp only
  rw [wp_bind, wp_modifyCtx]
  refine .inl ⟨rfl, p, h.besides hof rfl ?_ ?_ fun hno => ?_⟩
  · rw [ht.global]
    exact { h.place with state := h.place.state }
  · dsimp only
    split_ifs <;> exact UpdateCredentialState.noConfusion
  · dsimp only at hno
    split_ifs at hno

theorem wp_updateCredentialId (h : UpdateAt cmds p s) (hp : s.replyPending = true)
    (hstage : updateStage s = .id) (hof : ofCredential insSignUpdateCredential cmd = false) :
    wp (updateCredentialId cmd) (fun _ t => UpdateGoal (cmds ++ [cmd]) t) (fun _ _ => True)
      s := by
  unfold updateCredentialId
  rw [wp_bind, wp_getCtx, wp_bind]
  refine wp_hashField (fun t hlen ht => ?_) fun _ => trivial
  dsimp only
  have hlength : (cmd.data.take 48).length = 48 := by
    rw [List.length_take]
    omega
  rw [wp_bind]
  refine wp_toPaginatedHex (fun hnil => by rw [hnil] at hlength; cases hlength) (by omega)
    (by rw [hlength]; decide) fun credentialId _ => ?_
  rw [wp_bind, wp_checkedSub]
  refine ⟨fun _ => ?_, fun _ => trivial⟩
  rw [wp_bind, wp_setCtx]
  refine wp_uiSignUpdateCredentialIdDisplay fun rows actions hactions =>
    UpdateAt.reviewed (p := p) ?_ (ht.reply.trans hp) hactions
  have hid : (s.global.view SignCredentialDeploymentContext).updateCredentialState = .id := hstage
  refine h.besides hof rfl { h.place with state := h.place.state } ?_ fun hno => ?_
  · dsimp only
    split_ifs
    · exact UpdateCredentialState.noConfusion
    · rw [hid]
      exact UpdateCredentialState.noConfusion
  · dsimp only at hno
    split_ifs at hno
    cases hid.symm.trans hno

theorem wp_updateCredentialThreshold (h : UpdateAt cmds p s) (hp : s.replyPending = true)
    (hstage : updateStage s = .threshold)
    (hof : ofCredential insSignUpdateCredential cmd = false) :
    wp (updateCredentialThreshold cmd) (fun _ t => UpdateGoal (cmds ++ [cmd]) t) (fun _ _ => True)
      s := by
  unfold updateCredentialThreshold
  rw [wp_bind, wp_getCtx, wp_bind, wp_throwIf]
  refine ⟨fun _ => trivial, fun hlen => ?_⟩
  rw [wp_bind, wp_u8]
  refine ⟨fun _ => ?_, fun _ => trivial⟩
  rw [wp_bind]
  refine wp_binToDec (fun _ => trivial) fun _ => ?_
  rw [wp_bind, wp_memmove]
  refine ⟨fun _ => ?_, fun _ => trivial⟩
  rw [wp_bind]
  refine wp_updateHash_onto fun t ht => ?_
  rw [wp_bind, wp_setCtx]
  refine wp_uiSignUpdateCredentialThresholdDisplay fun rows actions hactions =>
    UpdateAt.reviewed (p := p) ?_ (ht.reply.trans hp) hactions
  have hthreshold : (s.global.view SignCredentialDeploymentContext).updateCredentialState =
    .threshold := hstage
  refine h.besides hof rfl { h.place with state := h.place.state } ?_ fun hno => ?_
  · rw [hthreshold]
    exact UpdateCredentialState.noConfusion
  · cases hthreshold.symm.trans hno

/-- A packet of a credential. -/
theorem wp_updateCredentialPacket (h : UpdateAt cmds p s) (hp : s.replyPending = true)
    (hstage : updateStage s = .credential)
    (hof : ofCredential insSignUpdateCredential cmd = true) :
    wp (handleSignCredentialDeployment cmd false)
      (fun _ t => t.latch = s.latch ∧ UpdateGoal (cmds ++ [cmd]) t)
      (fun _ _ => ¬ p.Takes cmd ∨ p.state = .newOrExisting) s := by
  refine wp_handleSignCredentialDeployment ⟨?_, ?_, fun _ _ hno => .inl hno, fun _ _ hs => .inr hs⟩
    h.place fun hno _ => absurd hno h.uninitial
  · intro t htakes hreply hmoved
    refine ⟨hmoved.latch, .inl ⟨hreply, p.next cmd.data, hmoved.place, h.read.next htakes hof,
      CredentialPlace.next_initial h.uninitial _, fun _ => ?_, fun _ hbehind => ?_⟩⟩
    · exact (h.left (.inr hstage)).trans_eq hmoved.count.symm
    · rw [hmoved.hash]
      exact CredentialPlace.Recorded.next (h.recorded hstage) htakes hbehind
  · intro q t htakes hreply hmoved hreview
    refine ⟨hmoved.latch, .inr ⟨hreply.trans hp, .credential hmoved.place hreview
      (h.read.next htakes hof) ?_ (hmoved.stage.trans hstage) ?_ fun hbehind => ?_⟩⟩
    · cases hreview with
      | key hq | value hq | added hq | final hq => rw [hq]; exact ProtocolState.noConfusion
    · exact (h.left (.inr hstage)).trans_eq hmoved.count.symm
    · rw [hmoved.hash]
      exact CredentialPlace.Recorded.next (h.recorded hstage) htakes hbehind

/-- A packet of the update. -/
theorem wp_handleSignUpdateCredential (h : UpdateAt cmds p s) (hp : s.replyPending = true) :
    wp (handleSignUpdateCredential cmd false) (fun _ t => UpdateGoal (cmds ++ [cmd]) t)
      (fun _ _ => True) s := by
  have hof {p2 : UInt8} (hp2 : cmd.p2 = p2)
      (hne : p2 ≠ SignCredentialDeploymentContext.p2CredentialCredential) :
      ofCredential insSignUpdateCredential cmd = false := by
    rw [ofCredential, hp2, Bool.or_eq_false_iff]
    exact ⟨by decide, beq_eq_false_iff_ne.mpr hne⟩
  unfold handleSignUpdateCredential
  rw [if_neg Bool.false_ne_true]
  change wp (getCtx SignCredentialDeploymentContext >>= _) _ _ _
  rw [wp_bind, wp_getCtx]
  refine wp_if (fun hgo => ?_) fun _ => ?_
  · exact wp_updateCredentialInitial h hp (hof hgo.1 (by decide))
  refine wp_if (fun hgo => ?_) fun _ => ?_
  · exact wp_mono (fun _ _ ht => ht) (fun _ _ _ => trivial)
      (wp_updateCredentialIndex h hgo.2.1 (hof hgo.1 (by decide)))
  refine wp_if (fun hgo => ?_) fun _ => ?_
  · refine wp_mono (fun _ _ ht => ht.2) (fun _ _ _ => trivial)
      (wp_updateCredentialPacket h hp hgo.2.1 ?_)
    rw [ofCredential, hgo.1]
    exact Bool.or_true _
  refine wp_if (fun hgo => ?_) fun _ => ?_
  · exact wp_updateCredentialIdCount h (hof hgo.1 (by decide))
  refine wp_if (fun hgo => ?_) fun _ => ?_
  · exact wp_updateCredentialId h hp hgo.2 (hof hgo.1 (by decide))
  refine wp_if (fun hgo => ?_) fun _ => trivial
  exact wp_updateCredentialThreshold h hp hgo.2 (hof hgo.1 (by decide))

/-! ## Answers -/

/-- The credential on screen is accepted: the update goes on to the next one, or
    to the credentials that are removed. -/
theorem wp_confirmAddedCredential
    (place : CredentialAt q (s.global.view SignCredentialDeploymentContext))
    (read : PlaceRead insSignUpdateCredential cmds q) :
    wp confirmAddedCredential (fun _ t => t.replyPending = false ∧ ∃ p, UpdateAt cmds p t)
      (fun _ _ => True) s := by
  have counted {state : ProtocolState} (hkey : state ≠ .verificationKey)
      (hthresholds : state ≠ .signatureThreshold) (hrevoker : state ≠ .arIdentity)
      (htag : state ≠ .attributeTag) : ({ q with state := state } : CredentialPlace).Counted :=
    CredentialPlace.counted_of_state hkey hthresholds hrevoker htag
  unfold confirmAddedCredential
  rw [wp_bind, wp_getCtx, wp_bind, wp_throwIf]
  refine ⟨fun _ => trivial, fun _ => ?_⟩
  refine wp_if (fun _ => ?_) fun hmore => ?_
  · rw [wp_bind, wp_setCtx]
    refine ⟨rfl, { q with state := .unset }, ?_, read.same rfl rfl rfl fun _ =>
      counted (by decide) (by decide) (by decide) (by decide), ProtocolState.noConfusion,
      fun hno => ?_, fun _ hno => hno.elim⟩
    · rw [InstructionContext.view_inject]
      exact { place with state := rfl }
    · unfold updateStage at hno
      rw [InstructionContext.view_inject] at hno
      rcases hno with hno | hno <;> cases hno
  · rw [wp_bind, wp_setCtx]
    refine ⟨rfl, { q with state := .verificationKeysLength }, ?_, read.same rfl rfl rfl fun _ =>
      counted (by decide) (by decide) (by decide) (by decide), ProtocolState.noConfusion,
      fun _ => ?_, fun _ hno => hno.elim⟩
    · rw [InstructionContext.view_inject]
      exact { place with state := rfl }
    · unfold credentialsLeft
      rw [InstructionContext.view_inject]
      exact Nat.pos_of_ne_zero hmore

theorem UpdateReview.answered {c : Callback} (h : UpdateReview cmds s)
    (hc : c ∈ s.screen.actions) :
    wp (runCallback c) (fun _ t => t.latch = none ∨ t.replyPending = false ∧
      ∃ p, UpdateAt cmds p t) (fun _ _ => True) (s.activated c) := by
  cases h with
  | @plain p h actions =>
    rcases actions c hc with rfl | rfl | hc
    · change wp (ioSendResponse [] swoSuccess) _ _ _
      rw [wp_ioSendResponse]
      exact .inr ⟨rfl, p, h.place, h.read, h.uninitial, h.left, h.recorded⟩
    · change wp rejectStagedReview _ _ _
      unfold rejectStagedReview
      rw [wp_bind, wp_releaseInstruction, wp_sendUserRejection]
      exact .inl rfl
    · exact wp_mono (fun _ _ ht => .inl ht) (fun _ _ hE => hE) (wp_signFlowShared hc)
  | @credential q r place review read uninitial stage left recorded =>
    obtain ⟨hrecord, hentries, hprovider⟩ := review.same
    by_cases hadded : c = .confirmAddedCredential
    · subst hadded
      have hq : q.state = .proofs := by
        cases review with
        | key _ _ _ actions => rcases actions _ hc with h | h | h <;> cases h
        | value _ _ actions => rcases actions _ hc with h | h <;> cases h
        | added hq => exact hq
        | final _ _ actions =>
          rcases actions _ hc with h | h
          · cases h
          · exact absurd h (by decide)
      have hcounted : q.Counted := CredentialPlace.counted_of_state (by rw [hq]; decide)
        (by rw [hq]; decide) (by rw [hq]; decide) (by rw [hq]; decide)
      refine wp_uxRunGuarded ?_ fun t ht => .inl ht
      exact wp_mono (fun _ _ ht => .inr ht) (fun _ _ hE => hE) (wp_confirmAddedCredential place
        (read.same hrecord hentries hprovider fun _ => hcounted))
    · refine wp_mono (fun _ t ht => ?_) (fun _ _ hE => hE) (review.answered place hc hadded)
      rcases ht with hfree | ⟨hreply, p, hp, hmoved⟩
      · exact .inl hfree
      have hleft : 0 < credentialsLeft t := left.trans_eq hmoved.count.symm
      refine .inr ⟨hreply, p, hmoved.place, ?_, ?_, fun _ => hleft, fun _ hbehind => ?_⟩
      · rcases hp with rfl | ⟨rfl, hq, -⟩
        · exact read
        · refine read.same hrecord hentries hprovider fun _ => ?_
          exact CredentialPlace.counted_of_state (by rw [hq]; decide) (by rw [hq]; decide)
            (by rw [hq]; decide) (by rw [hq]; decide)
      · rcases hp with rfl | ⟨rfl, -⟩
        · cases review with
          | key _ _ hr | added _ hr => rw [hr]; exact ProtocolState.noConfusion
          | value _ hr =>
            rw [hr]
            dsimp only
            split_ifs <;> exact ProtocolState.noConfusion
          | final hq hr => rw [hr, hq]; exact ProtocolState.noConfusion
        · exact uninitial
      · rw [hmoved.hash, List.append_nil]
        rcases hp with rfl | ⟨rfl, hq, -⟩
        · exact recorded hbehind
        · unfold CredentialPlace.behindThresholds at hbehind
          rw [hq] at hbehind
          exact hbehind.elim

/-! ## The flow -/

theorem UpdateGoal.flowing {ps : List Command} (h : UpdateGoal (carried ps) t) :
    Flowing insSignUpdateCredential (UpdateBetween ps) (UpdateUnderReview ps) t := by
  rcases h with ⟨hp, h⟩ | ⟨hp, h⟩
  · exact .of_between hp h
  · exact .of_review hp h

theorem UpdateAt.zeroed (h : s.global.view SignCredentialDeploymentContext = default) :
    UpdateAt [] { state := .unset } s := by
  have hcounted : ({ state := .unset } : CredentialPlace).Counted :=
    CredentialPlace.counted_of_state ProtocolState.noConfusion ProtocolState.noConfusion
      ProtocolState.noConfusion ProtocolState.noConfusion
  refine ⟨?_, PlaceRead.empty _ rfl rfl rfl hcounted, ProtocolState.noConfusion, fun hno => ?_,
    fun _ hno => hno.elim⟩
  · rw [h]
    exact ⟨rfl, rfl, rfl, rfl, rfl, rfl, rfl, rfl, fun hno => absurd rfl hno,
      fun hno => absurd rfl hno, fun hno => absurd rfl hno⟩
  · unfold updateStage at hno
    rw [h] at hno
    rcases hno with hno | hno <;> cases hno

theorem updateRules : FlowRules insSignUpdateCredential UpdateBetween UpdateUnderReview where
  still ps s t hst _ _ hI := by
    obtain ⟨p, h⟩ := hI
    rw [hst]
    exact ⟨p, h.place, h.read, h.uninitial, h.left, h.recorded⟩
  first cmd s hins hl hp hz _ _ _ := by
    have hview : s.global.view SignCredentialDeploymentContext = default := by
      rw [hz, InstructionContext.view_zeroed]
    rw [dispatch_updateCredential hins]
    refine wp_withData (fun hc => ?_) fun hc => ?_
    · refine .of_between rfl ⟨{ state := .unset }, ?_⟩
      rw [← List.nil_append [cmd], carried_empty hc]
      exact UpdateAt.zeroed hview
    · have hfirst : wp (handleSignUpdateCredential cmd false)
          (fun _ t => UpdateGoal ([] ++ [cmd]) t) (fun _ _ => True)
          { s with global := Member.inject { s.global.view SignCredentialDeploymentContext with
            updateCredentialState := .initial } } := by
        refine wp_handleSignUpdateCredential (UpdateAt.zeroed ?_) hp
        rw [InstructionContext.view_inject, hview]
        rfl
      unfold handleSignUpdateCredential at hfirst ⊢
      rw [if_neg Bool.false_ne_true] at hfirst
      rw [if_pos rfl, wp_bind, wp_modifyCtx]
      refine wp_mono (fun _ t ht => ?_) (fun _ _ hE => hE) hfirst
      refine UpdateGoal.flowing ?_
      rw [← List.nil_append [cmd], carried_snoc hc]
      exact ht
  next ps cmd s hins hl hp hI := by
    obtain ⟨p, h⟩ := hI
    rw [dispatch_updateCredential hins]
    refine wp_withData (fun hc => ?_) fun hc => ?_
    · refine .of_between rfl ⟨p, ?_⟩
      rw [carried_empty hc]
      exact ⟨h.place, h.read, h.uninitial, h.left, h.recorded⟩
    · refine wp_mono (fun _ t ht => ?_) (fun _ _ hE => hE) (wp_handleSignUpdateCredential h hp)
      refine UpdateGoal.flowing ?_
      rw [carried_snoc hc]
      exact ht
  answer ps c s hc hl hp hr := by
    refine wp_mono (fun _ t ht => ?_) (fun _ _ hE => hE) (hr.answered hc)
    rcases ht with hfree | ⟨hreply, h⟩
    · exact .of_free hfree
    · exact .of_between hreply h

/-! ## Every run -/

omit [Platform] in
/-- The place behind the packets of a deployment. -/
theorem DeploymentStage.read {hash : Bytes} {first : Command} {rest : List Command}
    (h : DeploymentStage hash (placeAfter {} rest) (first :: rest)) :
    PlaceRead insCredentialDeployment (first :: rest) (placeAfter {} rest) ∧
      ((placeAfter {} rest).behindThresholds → (placeAfter {} rest).Recorded hash) := by
  cases h with
  | reading hfirst taken hashed =>
    subst hashed
    clear * - hfirst taken
    induction rest using List.reverseRecOn with
    | nil =>
      have hcounted : ({} : CredentialPlace).Counted :=
        CredentialPlace.counted_of_state ProtocolState.noConfusion ProtocolState.noConfusion
          ProtocolState.noConfusion ProtocolState.noConfusion
      refine ⟨?_, fun hno => hno.elim⟩
      rw [← List.nil_append [first]]
      refine (PlaceRead.empty {} rfl rfl rfl hcounted).passed (fun hno => ?_) fun hno => ?_
      · rw [isThresholds, hfirst, Bool.and_eq_true] at hno
        cases hno.2
      · rw [isRevoker, hfirst, Bool.and_eq_true] at hno
        cases hno.2
    | append_singleton rest cmd ih =>
      obtain ⟨htaken, hcmd⟩ := allTaken_snoc.mp taken
      obtain ⟨hread, hrecorded⟩ := ih htaken
      rw [placeAfter_snoc, partsOf_snoc, ← List.cons_append]
      exact ⟨hread.next hcmd rfl, CredentialPlace.Recorded.next hrecorded hcmd⟩

/-- A credential is under review, as a whole. -/
def ReviewsCredential (ins : UInt8) (w : World) : Prop :=
  .confirmAddedCredential ∈ w.screen.actions ∨
    ins = insCredentialDeployment ∧ .buildAndSignTransactionHash ∈ w.screen.actions

/-- What the numbers of the packets lead to: a review shows the credential that
    was hashed, and the packet that is asked for next goes on with the flow. -/
structure CredentialFaithful (ins : UInt8) (cmds : List Command) (w : World) : Prop where
  reviewed : w.replyPending = true → ReviewsCredential ins w →
    CredentialShown (partsRead ins cmds) w
  proceeds : w.replyPending = false →
    (ins = insSignUpdateCredential → updateStage w = .credential) →
    ∃ p, CredentialAt p (w.global.view SignCredentialDeploymentContext) ∧
      ∀ cmd, cmd.ins = ins → ofCredential ins cmd = true → NumbersFit ins (cmds ++ [cmd]) →
        p.Asks cmd → ∃ w', step w (.apdu cmd) = some w' ∧ w'.latch = some ins
  indexed : w.replyPending = false → ins = insSignUpdateCredential →
    updateStage w = .credentialIndex → ∀ cmd, cmd.ins = ins →
    cmd.p2 = SignCredentialDeploymentContext.p2CredentialCredentialIndex → cmd.data ≠ [] →
    ∃ w', step w (.apdu cmd) = some w' ∧ w'.latch = some ins

theorem DeploymentUnderReview.shown {ps : List Command} (h : DeploymentUnderReview ps w)
    (hfit : NumbersFit insCredentialDeployment (carried ps))
    (hr : ReviewsCredential insCredentialDeployment w) :
    CredentialShown (partsRead insCredentialDeployment (carried ps)) w := by
  obtain ⟨first, rest, q, hps, hat, hs, hstage, hreview⟩ := h
  obtain ⟨hread, hrecorded⟩ := hstage.read
  rw [hps] at hfit ⊢
  have hoffer {P : Prop} (hno : .confirmAddedCredential ∈ w.screen.actions → P)
      (hno' : .buildAndSignTransactionHash ∈ w.screen.actions → P) : P := by
    rcases hr with hr | ⟨-, hr⟩
    · exact hno hr
    · exact hno' hr
  cases hreview with
  | key _ _ _ actions =>
    refine hoffer (fun hc => ?_) fun hc => ?_ <;> rcases actions _ hc with h | h | h <;> cases h
  | value _ _ actions =>
    refine hoffer (fun hc => ?_) fun hc => ?_ <;> rcases actions _ hc with h | h <;> cases h
  | added _ _ _ count => exact absurd hs.count count.ne'
  | final hq hr actions shown =>
    have hbehind : q.behindThresholds := by
      unfold CredentialPlace.behindThresholds
      rw [hq]
      trivial
    rw [hr] at hread hrecorded
    exact hread.shown hat (hrecorded hbehind) hfit (by rw [hq]; decide) shown

theorem UpdateReview.shown (h : UpdateReview cmds w)
    (hfit : NumbersFit insSignUpdateCredential cmds)
    (hr : ReviewsCredential insSignUpdateCredential w) :
    CredentialShown (partsRead insSignUpdateCredential cmds) w := by
  have hc : .confirmAddedCredential ∈ w.screen.actions := by
    rcases hr with hr | ⟨hno, -⟩
    · exact hr
    · exact absurd hno (by decide)
  cases h with
  | plain _ actions =>
    rcases actions _ hc with h | h | h
    · cases h
    · cases h
    · exact absurd h (by decide)
  | @credential q r place review read uninitial stage left recorded =>
    obtain ⟨hrecord, hentries, hprovider⟩ := review.same
    cases review with
    | key _ _ _ actions => rcases actions _ hc with h | h | h <;> cases h
    | value _ _ actions => rcases actions _ hc with h | h <;> cases h
    | added hq hr stage count actions shown =>
      subst hr
      have hs : q.state ≠ .arIdentity := by
        rw [hq]
        exact ProtocolState.noConfusion
      obtain ⟨hlength, hcount, hall, front, back, hhash, -⟩ := recorded trivial
      have hcounted : q.Counted := CredentialPlace.counted_of_state (by rw [hq]; decide)
        (by rw [hq]; decide) hs (by rw [hq]; decide)
      refine (read.same hrecord hentries hprovider fun _ => hcounted).shown place ?_ hfit hs shown
      exact ⟨hlength, hcount, fun _ => hall ProtocolState.noConfusion, front, back, hhash,
        fun hno => absurd hno hs⟩
    | final _ _ actions =>
      rcases actions _ hc with h | h
      · cases h
      · exact absurd h (by decide)

theorem CredentialPlace.Takes.latched (htakes : p.Takes cmd)
    (hat : CredentialAt p (s.global.view SignCredentialDeploymentContext))
    (hchoice : p.state ≠ .newOrExisting) :
    wp (handleSignCredentialDeployment cmd false) (fun _ t => t.latch = s.latch)
      (fun _ _ => False) s := by
  refine wp_handleSignCredentialDeployment ⟨fun t _ _ hmoved => hmoved.latch,
    fun q t _ _ hmoved _ => hmoved.latch, fun _ _ hno => hno htakes,
    fun _ _ hno => hchoice hno⟩ hat fun hno _ => ?_
  exact absurd hno (CredentialPlace.takes_selector htakes).2.1

omit [Platform] in
theorem CredentialPlace.Asks.not_choice (ha : p.Asks cmd) : p.state ≠ .newOrExisting ∧
    p.state ≠ .unset ∧ p.state ≠ .awaitingVerificationKeyConfirm := by
  have hlegible := ha.legible
  unfold CredentialPlace.Legible at hlegible
  refine ⟨fun hs => ?_, fun hs => ?_, fun hs => ?_⟩ <;> rw [hs] at hlegible <;> exact hlegible

omit [Platform] in
theorem wp_carried {handler : App Unit} {Q : Unit → World → Prop} {E : Exception → World → Prop}
    (hc : cmd.data ≠ []) (h : wp handler Q E s) : wp (withData cmd handler) Q E s := by
  unfold withData
  exact wp_if (fun hno => absurd (List.length_eq_zero_iff.mp hno) hc) fun _ => h

theorem DeploymentBetween.proceeds {ps : List Command} (h : DeploymentBetween ps w)
    (hl : w.latch = some insCredentialDeployment) (hp : w.replyPending = false) :
    ∃ p, CredentialAt p (w.global.view SignCredentialDeploymentContext) ∧
      ∀ cmd, cmd.ins = insCredentialDeployment → ofCredential insCredentialDeployment cmd = true →
        NumbersFit insCredentialDeployment (carried ps ++ [cmd]) → p.Asks cmd →
        ∃ w', step w (.apdu cmd) = some w' ∧ w'.latch = some insCredentialDeployment := by
  obtain ⟨p, hat, -, hstage⟩ := h
  refine ⟨p, hat, fun cmd hins hof hfit ha => ?_⟩
  obtain ⟨hchoice, hunset, hawaiting⟩ := ha.not_choice
  have hread : PlaceRead insCredentialDeployment (carried ps) p := by
    generalize carried ps = cmds at hstage
    have hstage' := hstage
    cases hstage with
    | unopened hs => exact absurd hs hunset
    | reading _ _ _ hp =>
      obtain rfl := hp.resolve_right hawaiting
      exact hstage'.read.1
  refine step_next (hins ▸ hl) hp ?_
  rw [dispatch_credentialDeployment hins]
  refine wp_carried ha.carries ?_
  refine wp_mono (fun _ _ ht => ?_) (fun _ _ hE => hE)
    ((hread.takes hof hfit ha).latched hat hchoice)
  exact ht.trans hl

theorem UpdateAt.proceeds (h : UpdateAt cmds p w)
    (hl : w.latch = some insSignUpdateCredential) (hp : w.replyPending = false)
    (hstage : updateStage w = .credential) (hins : cmd.ins = insSignUpdateCredential)
    (hof : ofCredential insSignUpdateCredential cmd = true)
    (hfit : NumbersFit insSignUpdateCredential (cmds ++ [cmd])) (ha : p.Asks cmd) :
    ∃ w', step w (.apdu cmd) = some w' ∧ w'.latch = some insSignUpdateCredential := by
  have hp2 : cmd.p2 = SignCredentialDeploymentContext.p2CredentialCredential := by
    rw [ofCredential, Bool.or_eq_true] at hof
    rcases hof with hof | hof
    · cases hof
    · exact beq_iff_eq.mp hof
  refine step_next (hins ▸ hl) hp ?_
  rw [dispatch_updateCredential hins]
  refine wp_carried ha.carries ?_
  have hgo : wp (handleSignCredentialDeployment cmd false)
      (fun _ t => t.latch = some insSignUpdateCredential) (fun _ _ => False)
      (w.delivered.arrived cmd.ins) := by
    refine wp_mono (fun _ _ ht => ?_) (fun _ _ hE => hE)
      ((h.read.takes hof hfit ha).latched h.place ha.not_choice.1)
    exact ht.trans hl
  unfold handleSignUpdateCredential
  rw [if_neg Bool.false_ne_true]
  change wp (getCtx SignCredentialDeploymentContext >>= _) _ _ _
  rw [wp_bind, wp_getCtx]
  refine wp_if (fun hno => absurd (hp2.symm.trans hno.1) (by decide)) fun _ => ?_
  refine wp_if (fun hno => absurd (hp2.symm.trans hno.1) (by decide)) fun _ => ?_
  exact wp_if (fun _ => hgo) fun hno => absurd ⟨hp2, hstage, h.left (.inr hstage)⟩ hno

/-- The index of a credential is taken whatever it is. -/
theorem UpdateAt.indexed (h : UpdateAt cmds p w)
    (hl : w.latch = some insSignUpdateCredential) (hp : w.replyPending = false)
    (hstage : updateStage w = .credentialIndex) (hins : cmd.ins = insSignUpdateCredential)
    (hp2 : cmd.p2 = SignCredentialDeploymentContext.p2CredentialCredentialIndex)
    (hc : cmd.data ≠ []) :
    ∃ w', step w (.apdu cmd) = some w' ∧ w'.latch = some insSignUpdateCredential := by
  refine step_next (hins ▸ hl) hp ?_
  rw [dispatch_updateCredential hins]
  refine wp_carried hc ?_
  unfold handleSignUpdateCredential
  rw [if_neg Bool.false_ne_true]
  change wp (getCtx SignCredentialDeploymentContext >>= _) _ _ _
  rw [wp_bind, wp_getCtx]
  refine wp_if (fun hno => absurd (hp2.symm.trans hno.1) (by decide)) fun _ => ?_
  refine wp_if (fun _ => ?_) fun hno => absurd ⟨hp2, hstage, h.left (.inl hstage)⟩ hno
  unfold updateCredentialIndex
  rw [wp_bind]
  refine wp_hashField (fun t _ ht => ?_) fun hlen => hc (List.length_eq_zero_iff.mp (by omega))
  rw [wp_bind, wp_modifyCtx]
  exact ht.latch.trans hl

/-- In every run in which reviews are answered once, where the digits of the
    identity providers of a flow leave room for a terminator and never get
    fewer, and no credential is without keys or revokers, every review shows the
    credential that was hashed, and no number makes the flow fail. -/
theorem credential_rows {ins : UInt8}
    (hins : ins = insCredentialDeployment ∨ ins = insSignUpdateCredential) {inputs : List Input}
    (hgate : Along Concordium.step Answers World.start inputs)
    (hrun : runInputs World.start inputs = some w) (hl : w.latch = some ins)
    (hfit : NumbersFit ins (carried (openPackets inputs))) :
    CredentialFaithful ins (carried (openPackets inputs)) w := by
  rcases hins with rfl | rfl
  · have hflow := deploymentRules.run hgate hrun
    exact ⟨fun hp hr => (hflow.review hl hp).shown hfit hr,
      fun hp _ => (hflow.between hl hp).proceeds hl hp, fun _ hno => absurd hno (by decide)⟩
  · have hflow := updateRules.run hgate hrun
    refine ⟨fun hp hr => UpdateReview.shown (hflow.review hl hp) hfit hr, fun hp hstage => ?_,
      fun hp _ hstage cmd hins hp2 hc => ?_⟩
    · obtain ⟨p, h⟩ := hflow.between hl hp
      exact ⟨p, h.place, fun cmd hins hof hfit' ha =>
        h.proceeds hl hp (hstage rfl) hins hof hfit' ha⟩
    · obtain ⟨p, h⟩ := hflow.between hl hp
      exact h.indexed hl hp hstage hins hp2 hc

end Updates

/-! ## Nine digits -/

/-- Nine digits fill the row's buffer, and the identity of a revoker shows
    behind them. -/
theorem identityProvider_runs_on :
    letI : Platform := sdkDevice .nbgl
    ∃ w, runInputs World.start (deploymentInputs 0 123456789) = some w ∧
      Along Concordium.step Answers World.start (deploymentInputs 0 123456789) ∧
      w.latch = some insCredentialDeployment ∧ w.replyPending = true ∧
      ReviewsCredential insCredentialDeployment w ∧
      row "Identity provider" (ascii "12345678903030303") ∈ w.screen.rows ∧
      ¬ CredentialShown (partsRead insCredentialDeployment
        (carried (openPackets (deploymentInputs 0 123456789)))) w := by
  let : Platform := sdkDevice .nbgl
  have hrun : (runInputs World.start (deploymentInputs 0 123456789)).any (fun w =>
      decide (w.latch = some insCredentialDeployment ∧ w.replyPending = true ∧
        .buildAndSignTransactionHash ∈ w.screen.actions ∧
        row "Identity provider" (ascii "12345678903030303") ∈ w.screen.rows ∧
        ¬ (hashedRows (partsRead insCredentialDeployment
          (carried (openPackets (deploymentInputs 0 123456789)))) ⊆ w.screen.rows))) = true := by
    decide +kernel
  obtain ⟨w, hw, hrun⟩ := (Option.any_eq_true _ _).mp hrun
  obtain ⟨hl, hp, hoffer, hrow, hrows⟩ := of_decide_eq_true hrun
  exact ⟨w, hw, by decide +kernel, hl, hp, .inr ⟨rfl, hoffer⟩, hrow, fun h => hrows h.rows⟩

/-- A packet of an update. -/
def updatePacket (p1 p2 : UInt8) (data : Bytes) : Input :=
  .apdu ⟨insSignUpdateCredential, p1, p2, data.take 255, take_data_le data⟩

open SignCredentialDeploymentContext in
/-- A credential of an update, with one key and one revoker. -/
def updateCredentialPackets (index : UInt8) (identityProvider : ℕ) : List Input :=
  [updatePacket 0 p2CredentialCredentialIndex [index],
    updatePacket p1VerificationKeyLength p2CredentialCredential [1],
    updatePacket p1VerificationKey p2CredentialCredential (List.replicate 34 7),
    updatePacket p1SignatureThreshold p2CredentialCredential
      (1 :: (List.replicate 48 9 ++ toBe 4 identityProvider ++ [1, 0, 1])),
    updatePacket p1ArIdentity p2CredentialCredential (List.replicate 100 3),
    updatePacket p1CredentialDates p2CredentialCredential [7, 231, 1, 7, 232, 1, 0, 0],
    updatePacket p1LengthOfProofs p2CredentialCredential [0, 0, 0, 1],
    updatePacket p1Proofs p2CredentialCredential [8]]

open SignCredentialDeploymentContext in
/-- An update with two credentials, up to the review of the second one. -/
def twoCredentialInputs : List Input :=
  updatePacket 0 p2CredentialInitial (6 :: [44, 919, 0, 0, 0, 0].flatMap (toBe 4) ++
      (List.replicate 32 7 ++ toBe 8 1 ++ toBe 8 500 ++ toBe 4 4 ++ toBe 8 9) ++
      [kindUpdateCredentials, 2]) ::
    .activate .sendSuccessNoIdle :: updateCredentialPackets 1 5 ++
    .activate .confirmAddedCredential :: updateCredentialPackets 2 17

/-- A deployment whose identity provider has one digit, and an update whose
    second one has two. -/
theorem credential_rows_reviewed :
    letI : Platform := sdkDevice .nbgl
    (∃ w, runInputs World.start (deploymentInputs 0 5) = some w ∧
      ReviewsCredential insCredentialDeployment w ∧
      CredentialFaithful insCredentialDeployment (carried (openPackets (deploymentInputs 0 5))) w) ∧
    ∃ w, runInputs World.start twoCredentialInputs = some w ∧
      ReviewsCredential insSignUpdateCredential w ∧
      CredentialFaithful insSignUpdateCredential (carried (openPackets twoCredentialInputs)) w := by
  let : Platform := sdkDevice .nbgl
  constructor
  · obtain ⟨w, -, hrun, -, ⟨hl, -⟩, ho, -⟩ := deploymentInputs_offered
    exact ⟨w, hrun, .inr ⟨rfl, ho.2⟩, credential_rows (.inl rfl)
      (deploymentInputs_answered 0 (.inl rfl)) hrun hl
      ⟨by decide +kernel, by decide +kernel, by decide +kernel, by decide +kernel⟩⟩
  · have hrun : (runInputs World.start twoCredentialInputs).any (fun w =>
        decide (w.latch = some insSignUpdateCredential ∧
          .confirmAddedCredential ∈ w.screen.actions)) = true := by
      decide +kernel
    obtain ⟨w, hw, hrun⟩ := (Option.any_eq_true _ _).mp hrun
    obtain ⟨hl, hreview⟩ := of_decide_eq_true hrun
    exact ⟨w, hw, .inl hreview, credential_rows (.inr rfl) (by decide +kernel) hw hl
      ⟨by decide +kernel, by decide +kernel, by decide +kernel, by decide +kernel⟩⟩

end Concordium
