/-
  A GET_PUBLIC_KEY review among APDUs that the SDK does not hold back.

  The path under review is pinned outside the union, but the request for a
  signature stays inside it.  An APDU of another instruction is refused and frees
  the latch, and the next one starts on a zeroed union.
-/
import Concordium.PublicKeys
import Concordium.Ungated

namespace Concordium

open Buffer Runs Wp

set_option synthInstance.maxSize 1000000
set_option synthInstance.maxHeartbeats 100000

/-! ## Replies in the log -/

section Replied
variable {s t u : World} {data : Bytes} {sw : UInt16}

/-- Among the new events is one reply. -/
def Replied (s t : World) (data : Bytes) (sw : UInt16) : Prop :=
  ∃ before after, t.log = s.log ++ (before ++ .reply data sw :: after) ∧ replies before = 0 ∧
    replies after = 0

theorem Replied.of_log (es : List Event) (hlog : t.log = s.log ++ es) (hes : replies es = 0)
    (h : Replied t u data sw) : Replied s u data sw := by
  obtain ⟨before, after, hu, hbefore, hafter⟩ := h
  refine ⟨es ++ before, after, by simp [hu, hlog], ?_, hafter⟩
  rw [replies, List.countP_append, ← replies, ← replies, hes, hbefore]

/-- What is replied. -/
def Event.replyOf : Event → Option (Bytes × UInt16)
  | .reply data sw => some (data, sw)
  | _ => none

theorem filterMap_replyOf {events : List Event} (h : replies events = 0) :
    events.filterMap Event.replyOf = [] := by
  rw [List.filterMap_eq_nil_iff]
  intro e he
  have hnot := List.countP_eq_zero.mp h e he
  cases e with
  | reply => exact absurd rfl hnot
  | _ => rfl

theorem Replied.replyOf (h : Replied s t data sw) :
    (t.log.drop s.log.length).filterMap Event.replyOf = [(data, sw)] := by
  obtain ⟨before, after, hlog, hbefore, hafter⟩ := h
  rw [hlog, List.drop_left, List.filterMap_append, filterMap_replyOf hbefore]
  show (data, sw) :: after.filterMap Event.replyOf = _
  rw [filterMap_replyOf hafter]

theorem Replied.data_eq {data' : Bytes} {sw' : UInt16} (h : Replied s t data sw)
    (h' : Replied s t data' sw') : data = data' := by
  have hsame := h.replyOf.symm.trans h'.replyOf
  simp only [List.cons.injEq, Prod.mk.injEq, and_true] at hsame
  exact hsame.1

end Replied

section Answers
variable [Platform] {w w' u v : World} {i : Input} {cmd : Command} {s t : World}
  {path : DerivationPath} {asked : Bool} {publicKey data : Bytes} {sw : UInt16}

/-! ## The reply -/

instance {input : Bytes} : Stateless (sign path input) := by
  unfold sign getPrivateKey getExtendedPrivateKey; infer_instance

/-- The key at a path, with a signature under the same path if one is asked for.
    The SDK may fail to sign. -/
inductive KeyAnswer (path : DerivationPath) : Bool → Bytes → UInt16 → Prop
  | key {publicKey : Bytes} (hkey : ∀ s, getPublicKey path s = .ok publicKey s) :
      KeyAnswer path false publicKey swoSuccess
  | signed {publicKey : Bytes} {signature : Buf 64}
      (hkey : ∀ s, getPublicKey path s = .ok publicKey s)
      (hsign : ∀ s, sign path publicKey s = .ok signature s) :
      KeyAnswer path true (publicKey ++ signature.bytes) swoSuccess
  | failed {publicKey : Bytes} (hkey : ∀ s, getPublicKey path s = .ok publicKey s)
      (hsign : ∀ s, sign path publicKey s = .error (.statusWord errorFailedCxOperation) s) :
      KeyAnswer path true [] errorFailedCxOperation

/-- No request is open, and no review of a key is pending. -/
structure Closed (w : World) : Prop where
  pending : w.publicKeyReviewPending = false
  latch : w.latch = none
  reply : w.replyPending = false

omit [Platform] in
theorem wp_ensureNoError {α : Type} {result : Option α} {Q : α → World → Prop}
    {E : Exception → World → Prop} (hsome : ∀ a, Q a s)
    (hnone : E (.statusWord errorFailedCxOperation) s) : wp (ensureNoError result) Q E s := by
  cases result with
  | none => exact hnone
  | some a => exact hsome a

theorem wp_sign_error {input : Bytes} :
    wp (sign path input) (fun _ _ => True)
      (fun e _ => e = .statusWord errorFailedCxOperation) s := by
  unfold sign getPrivateKey getExtendedPrivateKey
  simp only [wp_bind]
  refine wp_ensureNoError (fun key => ?_) rfl
  rw [wp_pure]
  exact wp_ensureNoError (fun _ => trivial) rfl

/-- The end of the reply: the review is over, whether or not the key stays on
    screen for comparison. -/
theorem wp_sendPublicKey_end {compare : Bool} {display : Buf 21} {response : Bytes}
    (hpending : s.publicKeyReviewPending = false) (hlen : publicKey.length = 32)
    {E : Exception → World → Prop} :
    wp (if compare then do
        sendSuccessResultNoIdle response
        let comparePublicKey ← toPaginatedHex publicKey (← get).comparePublicKey.publicKey
        modify fun w => { w with comparePublicKey := ⟨display, comparePublicKey⟩ }
        releaseInstruction
        uiComparePubkey
      else sendSuccess response)
      (fun _ t => Closed t ∧ Replied s t response swoSuccess) E s := by
  refine wp_if (fun _ => ?_) fun _ => ?_
  · rw [sendSuccessResultNoIdle, wp_bind, wp_ioSendResponse, wp_bind, wp_get, wp_bind]
    refine wp_toPaginatedHex (List.ne_nil_of_length_pos (by omega)) (by omega)
      (by rw [hlen]; decide) fun text _ => ?_
    rw [wp_bind, wp_modify, wp_bind, wp_releaseInstruction]
    refine wp_mono ?_ (fun _ _ h => h) wp_uiComparePubkey
    rintro _ _ ⟨screen, -, rfl⟩
    exact ⟨⟨hpending, rfl, rfl⟩, [], [.released, .drawn screen], by simp, rfl, rfl⟩
  · rw [wp_sendSuccess]
    exact ⟨⟨rfl, rfl, rfl⟩, [], _, List.append_assoc _ _ _, rfl, rfl⟩

/-- The reply goes out and the review is over, or the SDK does not sign. -/
theorem wp_sendPublicKey {compare : Bool} (hpath : s.reviewedPath = path)
    (hflag : (s.global.view ExportPublicKeyContext).signPublicKey = asked)
    (hkey : ∀ s, getPublicKey path s = .ok publicKey s) :
    wp (sendPublicKey compare)
      (fun _ t => Closed t ∧ ∃ data, Replied s t data swoSuccess ∧
        KeyAnswer path asked data swoSuccess)
      (fun e t => e = .statusWord errorFailedCxOperation ∧ t.log = s.log ∧
        t.publicKeyReviewPending = false ∧ KeyAnswer path asked [] errorFailedCxOperation) s := by
  have hlen : publicKey.length = 32 := (wp_ok getPublicKey_length (hkey s)).2
  unfold sendPublicKey
  rw [wp_bind, wp_modify, wp_bind, wp_get, wp_bind]
  subst hpath
  refine wp_stateless (fun key hkey' => ?_) fun e herr => ?_
  swap
  · cases (herr s).symm.trans (hkey s)
  obtain rfl : key = publicKey := by
    have hsame := (hkey' s).symm.trans (hkey s)
    simpa using hsame
  rw [wp_bind, wp_getCtx, wp_bind, hflag]
  cases asked with
  | false =>
    rw [if_neg Bool.false_ne_true, wp_pure]
    refine wp_mono (fun _ t ht => ⟨ht.1, key ++ [], ht.2, ?_⟩) (fun _ _ h => h)
      (wp_sendPublicKey_end rfl hlen)
    rw [List.append_nil]
    exact .key hkey
  | true =>
    rw [if_pos rfl, wp_bind]
    refine wp_stateless (fun signature hsign => ?_) fun e herr => ?_
    · rw [wp_pure]
      exact wp_mono (fun _ t ht => ⟨ht.1, key ++ signature.bytes, ht.2, .signed hkey hsign⟩)
        (fun _ _ h => h) (wp_sendPublicKey_end rfl hlen)
    · obtain rfl := wp_error wp_sign_error (herr s)
      exact ⟨rfl, rfl, rfl, .failed hkey herr⟩

/-! ## The review -/

/-- The review of a key at a path is up: its claim is pending, and the union
    still says whether a signature was asked for. -/
structure KeyReviewUp (path : DerivationPath) (asked : Bool) (w : World) : Prop where
  pending : w.publicKeyReviewPending = true
  pinned : w.reviewedPath = path
  flag : (w.global.view ExportPublicKeyContext).signPublicKey = asked
  confirm : .sendPublicKeyConfirm ∈ w.screen.actions
  reject : .sendUserRejection ∈ w.screen.actions

theorem KeyReviewUp.kept (h : KeyReviewUp path asked s) (hst : SameReview s t)
    (hflag : (t.global.view ExportPublicKeyContext).signPublicKey = asked) :
    KeyReviewUp path asked t where
  pending := hst.pending.trans h.pending
  pinned := hst.reviewedPath.trans h.pinned
  flag := hflag
  confirm := by rw [hst.screen]; exact h.confirm
  reject := by rw [hst.screen]; exact h.reject

theorem KeyReviewUp.aside (h : KeyReviewUp path asked s) (hst : Aside s t) :
    KeyReviewUp path asked t :=
  h.kept hst.toSameReview (by rw [hst.global, h.flag])

theorem wp_uiGeneratePubkey {E : Exception → World → Prop}
    (hpending : s.publicKeyReviewPending = true) :
    wp uiGeneratePubkey (fun _ t => KeyReviewUp s.reviewedPath
      (s.global.view ExportPublicKeyContext).signPublicKey t) E s := by
  unfold uiGeneratePubkey nbglReview
  rw [wp_bind, wp_getCtx]
  cases (Platform.backend : Backend) <;> dsimp only <;> rw [wp_showScreen] <;>
    exact ⟨hpending, rfl, rfl, by simp [World.screenOf], by simp [World.screenOf]⟩

/-- A handler that has not answered has drawn the review, with the path and the
    request for a signature in place. -/
theorem handleGetPublicKey_up :
    wp (handleGetPublicKey cmd) (fun _ t => t.replyPending = true →
      KeyReviewUp (keyPath (sentNodes cmd.data)) (cmd.p2 == p2SignPublicKey) t)
      (fun _ _ => True) s := by
  unfold handleGetPublicKey
  rw [wp_bind, wp_get]
  refine wp_if (fun _ => ?_) fun _ => ?_
  · rw [ioSendSw, wp_ioSendResponse]
    exact fun h => absurd h Bool.false_ne_true
  rw [wp_bind]
  refine wp_parseDerivationPath_sent (fun _ n _ _ => ?_) fun _ _ _ => trivial
  rw [wp_bind, wp_modify, wp_bind, wp_modifyCtx]
  refine wp_if (fun _ => ?_) fun _ => ?_
  · refine wp_mono (fun _ t ht hp => ?_) (fun _ _ h => h) wp_sendPublicKey_answers
    exact absurd (ht.symm.trans hp) Bool.false_ne_true
  simp only [wp_bind, wp_get, wp_setDerivationPath]
  refine wp_reads _ (fun text _ => ?_) fun _ _ => trivial
  simp only [wp_bind, wp_get, wp_setDerivationPath]
  refine wp_reads _ (fun publicKey _ => ?_) fun _ _ => trivial
  simp only [wp_bind, wp_getCtx, InstructionContext.view_inject]
  refine wp_reads _ (fun display _ => ?_) fun _ _ => trivial
  rw [wp_bind]
  refine wp_reads _ (fun publicKeyText _ => ?_) fun _ _ => trivial
  rw [wp_bind, wp_setCtx, wp_bind, wp_modify]
  refine wp_mono (fun _ t ht _ => ?_) (fun _ _ h => h) (wp_uiGeneratePubkey rfl)
  rw [InstructionContext.view_inject] at ht
  exact ht

/-- The APDUs that leave the request under review alone: GET_PUBLIC_KEY still
    holds the latch, or another instruction than the packet's does, or no screen
    is drawn and the union reads as it was asked.  On a free latch the union is
    zeroed, which drops the request for a signature. -/
def LeavesRequest (asked : Bool) (w : World) : Input → Prop
  | .apdu cmd => (∃ ins, w.latch = some ins ∧ (ins = insGetPublicKey ∨ ins ≠ cmd.ins)) ∨
      asked = false ∧ (RefusedForm w cmd ∨ cmd.ins ∉ contextInstructions) ∨
      StaysUp w (.apdu cmd) ∧ ∀ w' ∈ ungatedStep w (.apdu cmd),
        (w'.global.view ExportPublicKeyContext).signPublicKey = asked
  | .badLength | .badClass => True
  | .activate _ => False

omit [Platform] in
/-- GET_PUBLIC_KEY is refused while a review of it is pending. -/
theorem refusedForm_pending (hp : s.publicKeyReviewPending = true)
    (hins : cmd.ins = insGetPublicKey) : RefusedForm s cmd := by
  unfold RefusedForm
  rw [hins, if_neg (by decide), if_neg (by decide), if_pos rfl]
  exact .inr hp

theorem KeyReviewUp.dispatch {isInitialCall : Bool} (h : KeyReviewUp path asked s)
    (hcmd : RefusedForm s cmd ∨ cmd.ins ∉ contextInstructions) :
    wp (catching (dispatchInstruction cmd isInitialCall) endFlow)
      (fun _ t => KeyReviewUp path asked t) (fun _ _ => True) s := by
  have hcmd' : RefusedForm s cmd ∨ cmd.ins ≠ insGetPublicKey ∧ cmd.ins ∉ contextInstructions := by
    by_cases hins : cmd.ins = insGetPublicKey
    · exact .inl (refusedForm_pending h.pending hins)
    · exact hcmd.imp id fun hout => ⟨hins, hout⟩
  rw [wp_catching]
  exact wp_mono (fun _ _ ht => h.aside ht) (fun _ _ hE => hE.elim)
    (dispatchInstruction_aside (E := fun _ _ => False) hcmd')

theorem KeyReviewUp.claimed (h : KeyReviewUp path false w) :
    KeyReviewUp path false ((w.delivered.claimed cmd.ins).arrived cmd.ins) where
  pending := h.pending
  pinned := h.pinned
  flag := by
    rw [World.arrived, World.claimed, InstructionContext.view_zeroed]
    rfl
  confirm := h.confirm
  reject := h.reject

/-- Another GET_PUBLIC_KEY is refused, and no other instruction takes the claim. -/
theorem KeyReviewUp.sameReview (h : KeyReviewUp path asked w) (hstays : StaysUp w (.apdu cmd))
    (hs : ungatedStep w (.apdu cmd) = some w') : SameReview w w' := by
  by_cases hkey : cmd.ins = insGetPublicKey
  · refine of_ungatedStep hs (wp_apdu (fun _ _ _ => ⟨rfl, rfl, rfl⟩) fun isInitialCall s hr => ?_)
    have hsame : SameReview w s := by cases hr <;> exact ⟨rfl, rfl, rfl⟩
    have hrefused : RefusedForm s cmd := refusedForm_pending (hsame.pending.trans h.pending) hkey
    rw [wp_catching]
    exact wp_mono (fun _ _ ht => trans_of SameReview hsame ht.toSameReview)
      (fun _ _ hE => hE.elim) (dispatchInstruction_aside (E := fun _ _ => False) (.inl hrefused))
  · exact hstays.sameReview hs hkey

/-- What one APDU leaves of the review. -/
theorem KeyReviewUp.step (h : KeyReviewUp path asked w) (hi : LeavesRequest asked w i)
    (hs : ungatedStep w i = some w') : KeyReviewUp path asked w' := by
  by_cases hkept : ∃ cmd, i = .apdu cmd ∧ StaysUp w (.apdu cmd) ∧
      (w'.global.view ExportPublicKeyContext).signPublicKey = asked
  · obtain ⟨cmd, rfl, hstays, hflag⟩ := hkept
    exact h.kept (h.sameReview hstays hs) hflag
  refine of_ungatedStep hs ?_
  cases i with
  | activate c => exact hi.elim
  | badLength | badClass =>
    simp only [runInput, deliver, ioSendSw, wp_bind, wp_modify, wp_record, wp_ioSendResponse]
    exact h.aside ⟨⟨rfl, rfl, rfl⟩, rfl⟩
  | apdu cmd =>
    refine wp_apdu (fun _ _ _ => h.aside aside_switched) fun isInitialCall s hr => ?_
    cases hr with
    | first hnone =>
      rcases hi with ⟨ins, hl, -⟩ | ⟨rfl, hcmd⟩ | ⟨hstays, hflag⟩
      · exact absurd (hl.symm.trans hnone) (Option.some_ne_none _)
      · exact h.claimed.dispatch (hcmd.imp (RefusedForm.congr rfl).mpr id)
      · exact absurd ⟨cmd, rfl, hstays, hflag w' hs⟩ hkept
    | next hsome =>
      have harrived : KeyReviewUp path asked (w.delivered.arrived cmd.ins) :=
        h.aside ⟨⟨rfl, rfl, rfl⟩, rfl⟩
      refine harrived.dispatch ?_
      rcases hi with ⟨ins, hl, hkey | hne⟩ | ⟨-, hcmd⟩ | ⟨hstays, hflag⟩
      · have hins : cmd.ins = insGetPublicKey :=
          (Option.some.inj (hsome.symm.trans hl)).trans hkey
        exact .inl (refusedForm_pending h.pending hins)
      · exact absurd (Option.some.inj (hl.symm.trans hsome)) hne
      · exact hcmd.imp (RefusedForm.congr rfl).mpr id
      · exact absurd ⟨cmd, rfl, hstays, hflag w' hs⟩ hkept

/-! ## The answer of the user -/

/-- GET_PUBLIC_KEY is served: no review is pending, a request to display the key
    comes to its review, and one that skips the display is answered. -/
structure ServesKeys (w : World) : Prop extends Closed w where
  displayed : ∀ cmd text publicKey, cmd.ins = insGetPublicKey → KeyRequest cmd w text publicKey →
    ∃ w', PublicKeyReviewed w cmd w' ∧
      KeyUnderReview (keyPath (sentNodes cmd.data)) text publicKey w'
  direct : ∀ cmd publicKey, cmd.ins = insGetPublicKey → cmd.p1 = p1SkipDisplay →
    WellSent cmd.data → (∀ s, getPublicKey (keyPath (sentNodes cmd.data)) s = .ok publicKey s) →
    ∃ w' data sw, step w (.apdu cmd) = some w' ∧ Replied w w' data sw ∧
      KeyAnswer (keyPath (sentNodes cmd.data)) (cmd.p2 == p2SignPublicKey) data sw

omit [Platform] in
theorem withData_sent {x : App Unit} (h : WellSent cmd.data) : withData cmd x = x :=
  if_neg fun hlc => absurd (lt_of_eq_of_lt hlc Nat.zero_lt_one) h.nonempty

/-- Without a display the reply goes out at once. -/
theorem handleGetPublicKey_direct (hp : s.publicKeyReviewPending = false)
    (hskip : cmd.p1 = p1SkipDisplay) (hsent : WellSent cmd.data)
    (hkey : ∀ s, getPublicKey (keyPath (sentNodes cmd.data)) s = .ok publicKey s) :
    wp (catching (handleGetPublicKey cmd) endFlow) (fun _ t => ∃ data sw, Replied s t data sw ∧
      KeyAnswer (keyPath (sentNodes cmd.data)) (cmd.p2 == p2SignPublicKey) data sw)
      (fun _ _ => False) s := by
  rw [wp_catching]
  unfold handleGetPublicKey
  rw [wp_bind, wp_get, if_neg (by simp [hp]), wp_bind]
  refine wp_parseDerivationPath_sent (fun _ n events hevents => ?_) fun hno => absurd hsent hno
  rw [wp_bind, wp_modify, wp_bind, wp_modifyCtx, if_pos hskip]
  refine wp_mono (fun _ t ht => ?_) (fun e t ht => ?_)
    (wp_sendPublicKey rfl (congrArg _ (InstructionContext.view_inject _)) hkey)
  · obtain ⟨-, data, hreply, hanswer⟩ := ht
    exact ⟨data, swoSuccess, hreply.of_log events rfl hevents, hanswer⟩
  · obtain ⟨rfl, hlog, -, hanswer⟩ := ht
    refine ⟨fun sw hsw => ?_, fun hfault => by cases hfault⟩
    cases hsw
    rw [wp_endFlow]
    refine ⟨[], errorFailedCxOperation, ⟨events ++ [.released], [], ?_, ?_, rfl⟩, hanswer⟩
    · simp [hlog]
    · rw [replies, List.countP_append, ← replies, hevents]
      rfl

theorem Closed.servesKeys (h : Closed w) : ServesKeys w where
  toClosed := h
  displayed cmd text publicKey hins hrequest := by
    have hr : Received w cmd true ((w.delivered.claimed cmd.ins).arrived cmd.ins) := .first h.latch
    obtain ⟨w', hs, hreview, hp⟩ := step_received (Q := fun t =>
      KeyUnderReview (keyPath (sentNodes cmd.data)) text publicKey t ∧ t.replyPending = true) hr
      h.reply (by
        rw [dispatchInstruction_getPublicKey hins, withData_sent hrequest.sent]
        exact handleGetPublicKey_reviews
          ⟨hrequest.idle, hrequest.display, hrequest.sent, hrequest.reviewable⟩)
    exact ⟨w', ⟨hins, hs, hp⟩, hreview⟩
  direct cmd publicKey hins hskip hsent hkey := by
    have hr : Received w cmd true ((w.delivered.claimed cmd.ins).arrived cmd.ins) := .first h.latch
    obtain ⟨w', hs, data, sw, hreply, hanswer⟩ := step_guarded (Q := fun t => ∃ data sw,
        Replied w t data sw ∧
          KeyAnswer (keyPath (sentNodes cmd.data)) (cmd.p2 == p2SignPublicKey)
            data sw) hr h.reply (by
      rw [dispatchInstruction_getPublicKey hins, withData_sent hsent]
      refine wp_mono (fun _ t ht => ?_) (fun _ _ hE => hE)
        (handleGetPublicKey_direct h.pending hskip hsent hkey)
      obtain ⟨data, sw, hreply, hanswer⟩ := ht
      refine ⟨data, sw, hreply.of_log [.delivered, .claimed cmd.ins, .packet cmd.ins] ?_ rfl,
        hanswer⟩
      simp [World.arrived, World.claimed, World.delivered])
    exact ⟨w', data, sw, hs, hreply, hanswer⟩

/-- The user's answer ends the review as it was requested: the key at the pinned
    path, with a signature exactly if one was asked for, and from then on
    GET_PUBLIC_KEY is served again. -/
structure AnswersRequest (path : DerivationPath) (asked : Bool) (w : World) : Prop where
  pending : w.publicKeyReviewPending = true
  pinned : w.reviewedPath = path
  accepted : ∃ v data sw, step w (.activate .sendPublicKeyConfirm) = some v ∧
    Replied w v data sw ∧ KeyAnswer path asked data sw ∧ ServesKeys v
  rejected : ∃ v, step w (.activate .sendUserRejection) = some v ∧ ServesKeys v

/-- The key goes out, or the error of the SDK. -/
theorem wp_sendPublicKeyConfirm (hpath : s.reviewedPath = path)
    (hflag : (s.global.view ExportPublicKeyContext).signPublicKey = asked)
    (hkey : ∀ s, getPublicKey path s = .ok publicKey s) :
    wp (runCallback .sendPublicKeyConfirm)
      (fun _ t => Closed t ∧ ∃ data sw, Replied s t data sw ∧ KeyAnswer path asked data sw)
      (fun _ _ => False) s := by
  change wp (uxRunGuarded (sendPublicKey true)) _ _ s
  unfold uxRunGuarded
  rw [wp_catching]
  refine wp_mono (fun _ t ht => ?_) (fun e t ht => ?_) (wp_sendPublicKey hpath hflag hkey)
  · obtain ⟨hclosed, data, hreply, hanswer⟩ := ht
    exact ⟨hclosed, data, swoSuccess, hreply, hanswer⟩
  · obtain ⟨rfl, hlog, -, hanswer⟩ := ht
    refine ⟨fun sw hsw => ?_, fun hfault => by cases hfault⟩
    cases hsw
    rw [wp_bind, wp_endFlow, wp_uiMenuMain]
    refine ⟨⟨rfl, rfl, rfl⟩, [], errorFailedCxOperation, ⟨[.released],
      [.released, .drawn (idleScreen t.txState.hash)], ?_, rfl, rfl⟩, hanswer⟩
    simp [World.toMenu, hlog]

theorem KeyReviewUp.answers (h : KeyReviewUp path asked w)
    (hkey : ∀ s, getPublicKey path s = .ok publicKey s) : AnswersRequest path asked w where
  pending := h.pending
  pinned := h.pinned
  accepted := by
    obtain ⟨v, hs, hclosed, data, sw, hreply, hanswer⟩ := step_activate h.confirm
      (wp_sendPublicKeyConfirm (s := w.activated .sendPublicKeyConfirm) h.pinned h.flag hkey)
    exact ⟨v, data, sw, hs, hreply.of_log [.activated .sendPublicKeyConfirm] rfl rfl,
      hanswer, hclosed.servesKeys⟩
  rejected := by
    obtain ⟨v, hs, hclosed⟩ := step_activate (Q := Closed) h.reject (by
      rw [runCallback, wp_sendUserRejection]
      exact ⟨rfl, rfl, rfl⟩)
    exact ⟨v, hs, hclosed.servesKeys⟩

theorem PublicKeyReviewed.up (h : PublicKeyReviewed w cmd w') :
    KeyReviewUp (keyPath (sentNodes cmd.data)) (cmd.p2 == p2SignPublicKey) w' := by
  refine of_pending_step h.step h.pending fun isInitialCall s _ => ?_
  rw [dispatchInstruction_getPublicKey h.ins]
  exact wp_withData (fun _ hp => absurd hp Bool.false_ne_true) fun _ => handleGetPublicKey_up

/-- Through APDUs that leave the request under review alone, the user's answer
    stays the answer to it. -/
theorem public_key_answers {inputs : List Input} (hreviewed : PublicKeyReviewed w cmd w')
    (hleaves : Along ungatedStep (LeavesRequest (cmd.p2 == p2SignPublicKey)) w' inputs)
    (hrun : run ungatedStep w' inputs = some u) :
    AnswersRequest (keyPath (sentNodes cmd.data)) (cmd.p2 == p2SignPublicKey) u := by
  obtain ⟨_, _, _, publicKey, -, hrequest, -⟩ := hreviewed.drawn
  exact (run_invariant (fun _ _ _ h hi hs => h.step hi hs) hreviewed.up hleaves hrun).answers
    hrequest.reviewable.key

end Answers

/-! ## A signature that is lost -/

/-- Asks for the key of an account and a signature. -/
def signedKeyCommand : Command :=
  { accountKeyCommand newMainnetCoinType with p2 := p2SignPublicKey }

/-- Two queries during the review, and the key goes out without the signature
    that was asked for. -/
theorem public_key_answers_fails :
    letI : Platform := keyedDevice .nbgl
    ¬ ∀ w cmd w' inputs u, PublicKeyReviewed w cmd w' → (∀ i ∈ inputs, i.isPacket) →
      run ungatedStep w' inputs = some u →
        AnswersRequest (keyPath (sentNodes cmd.data)) (cmd.p2 == p2SignPublicKey) u := by
  let : Platform := keyedDevice .nbgl
  have hrun : ((step World.start (.apdu signedKeyCommand)).bind fun w =>
      (run ungatedStep w [.apdu appNameQuery, .apdu appNameQuery]).bind fun u =>
        (step u (.activate .sendPublicKeyConfirm)).map fun v => (w, u, v)).any (fun x =>
          decide (x.1.replyPending = true ∧
            ((x.2.2.log.drop x.2.1.log.length).filterMap Event.replyOf).map
              (fun r => (r.1.length, r.2)) = [(32, swoSuccess)])) = true := by
    decide +kernel
  obtain ⟨⟨w, u, v⟩, hx, hcheck⟩ := (Option.any_eq_true _ _).mp hrun
  obtain ⟨w', hw, hx⟩ := Option.bind_eq_some_iff.mp hx
  obtain ⟨u', hu, hx⟩ := Option.bind_eq_some_iff.mp hx
  obtain ⟨v', hv, hpair⟩ := Option.map_eq_some_iff.mp hx
  cases hpair
  obtain ⟨hp, hreplies⟩ := of_decide_eq_true hcheck
  intro h
  obtain ⟨v', data, sw, hv', hreply, hanswer, -⟩ :=
    (h World.start signedKeyCommand w _ u ⟨rfl, hw, hp⟩ (by simp [Input.isPacket]) hu).accepted
  obtain rfl : v' = v := Option.some.inj (hv'.symm.trans hv)
  rw [hreply.replyOf] at hreplies
  simp only [List.map_cons, List.map_nil, List.cons.injEq, Prod.mk.injEq, and_true] at hreplies
  obtain ⟨hlen, rfl⟩ := hreplies
  cases hanswer with
  | @signed publicKey signature hkey hsign =>
    rw [List.length_append, signature.size] at hlen
    omega

/-- A transfer without a header. -/
def shortTransfer : Command := ⟨insSignTransfer, 0, 0, [0], by decide⟩

/-- One query during the review is refused, and the signature is still sent.
    Where none was asked for, a transfer behind the query may be refused as
    well. -/
theorem public_key_answers_refusal :
    letI : Platform := keyedDevice .nbgl
    (∃ w u, PublicKeyReviewed World.start signedKeyCommand w ∧
      run ungatedStep w [.apdu appNameQuery] = some u ∧
        AnswersRequest (keyPath (sentNodes signedKeyCommand.data)) true u) ∧
    ∃ w u, PublicKeyReviewed World.start (accountKeyCommand newMainnetCoinType) w ∧
      run ungatedStep w [.apdu appNameQuery, .apdu shortTransfer] = some u ∧
        AnswersRequest (keyPath (sentNodes (accountKeyCommand newMainnetCoinType).data))
          false u := by
  let : Platform := keyedDevice .nbgl
  constructor
  · have hrun : ((step World.start (.apdu signedKeyCommand)).bind fun w =>
        (run ungatedStep w [.apdu appNameQuery]).map fun u => (w, u)).any (fun x =>
          decide (x.1.replyPending = true ∧ x.1.latch = some insGetPublicKey)) = true := by
      decide +kernel
    obtain ⟨⟨w, u⟩, hx, hcheck⟩ := (Option.any_eq_true _ _).mp hrun
    obtain ⟨w', hw, hx⟩ := Option.bind_eq_some_iff.mp hx
    obtain ⟨u', hu, hpair⟩ := Option.map_eq_some_iff.mp hx
    cases hpair
    obtain ⟨hp, hlatch⟩ := of_decide_eq_true hcheck
    have hreviewed : PublicKeyReviewed World.start signedKeyCommand w := ⟨rfl, hw, hp⟩
    have hleaves : Along ungatedStep (LeavesRequest true) w [.apdu appNameQuery] :=
      ⟨.inl ⟨_, hlatch, .inl rfl⟩, fun _ _ => trivial⟩
    exact ⟨w, u, hreviewed, hu, public_key_answers hreviewed hleaves hu⟩
  · have hrun : ((step World.start (.apdu (accountKeyCommand newMainnetCoinType))).bind fun w =>
        (run ungatedStep w [.apdu appNameQuery, .apdu shortTransfer]).map fun u => (w, u)).any
          (fun x => decide (x.1.replyPending = true ∧ x.1.latch = some insGetPublicKey ∧
            ∀ v ∈ ungatedStep x.1 (.apdu appNameQuery), StaysUp v (.apdu shortTransfer) ∧
              ∀ u ∈ ungatedStep v (.apdu shortTransfer),
                (u.global.view ExportPublicKeyContext).signPublicKey = false)) = true := by
      decide +kernel
    obtain ⟨⟨w, u⟩, hx, hcheck⟩ := (Option.any_eq_true _ _).mp hrun
    obtain ⟨w', hw, hx⟩ := Option.bind_eq_some_iff.mp hx
    obtain ⟨u', hu, hpair⟩ := Option.map_eq_some_iff.mp hx
    cases hpair
    obtain ⟨hp, hlatch, hkept⟩ := of_decide_eq_true hcheck
    have hreviewed : PublicKeyReviewed World.start (accountKeyCommand newMainnetCoinType) w :=
      ⟨rfl, hw, hp⟩
    have hleaves : Along ungatedStep (LeavesRequest false) w
        [.apdu appNameQuery, .apdu shortTransfer] :=
      ⟨.inl ⟨_, hlatch, .inl rfl⟩, fun v hv => ⟨.inr (.inr (hkept v hv)), fun _ _ => trivial⟩⟩
    exact ⟨w, u, hreviewed, hu, public_key_answers hreviewed hleaves hu⟩

end Concordium
