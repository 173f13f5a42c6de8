/-
  The review of a new-path export among APDUs that the SDK does not hold back.

  The request under review lies in the union, with `isNewPath` as its witness.  A
  zeroed union has no witness, but the bytes that another instruction leaves
  there may read as one.
-/
import Concordium.IdentityTexts
import Concordium.KeyAnswers
import Concordium.KeyExport
import Concordium.PltStreaming

namespace Concordium

open Buffer Runs Union Wp

set_option synthInstance.maxSize 1000000
set_option synthInstance.maxHeartbeats 100000

/-! ## Requests -/

/-- What an export is asked for. -/
structure ExportParams where
  purpose : UInt8
  network : UInt8
  identityProvider : UInt32
  identity : UInt32
  account : UInt32
deriving DecidableEq, Repr

/-- The request of a command; without an account, the largest one stands in. -/
def exportParams (cmd : Command) : ExportParams where
  purpose := cmd.p1
  network := cmd.p2
  identityProvider := exportIndex cmd 0
  identity := exportIndex cmd 1
  account := if needsAccount cmd then exportIndex cmd 2 else 0xFFFFFFFF

/-- The request that the union holds. -/
def ExportPrivateKeyContext.params (ctx : ExportPrivateKeyContext) : ExportParams where
  purpose := ctx.newPathPurpose
  network := ctx.newPathNetwork
  identityProvider := ctx.newPathIdentityProvider
  identity := ctx.newPathIdentity
  account := ctx.newPathAccount

/-- The rows that name a request: its network, the keys it releases and its
    indices. -/
def requestRows (cmd : Command) : List Row :=
  [row "Credentials ID" (exportText cmd),
    row "Network" (if cmd.p2 = p2Mainnet then ascii "Mainnet" else ascii "Testnet"),
    row "Keys released" (newPathPurposeText cmd.p1).2]

section Release
variable [Platform] {w w' u : World} {i : Input} {cmd : Command} {s t : World} {p : ExportParams}

/-- The keys of a request, as the export derives them. -/
def ReleasesKeys (p : ExportParams) (data : Bytes) : Prop :=
  ∀ s, exportNewPathPrivateKeysForPurpose p.purpose p.network p.identityProvider p.identity
    p.account 195 s = .ok (swoSuccess, data) s

/-- The keys of a request, read off one run. -/
def ExportParams.keys (p : ExportParams) : Option Bytes :=
  match exportNewPathPrivateKeysForPurpose p.purpose p.network p.identityProvider p.identity
      p.account 195 World.start with
  | .ok (sw, data) _ => if sw = swoSuccess then some data else none
  | .error _ _ => none

theorem ExportParams.keys_eq_some {data : Bytes} : p.keys = some data ↔ ReleasesKeys p data := by
  obtain ⟨r, out, -, hexport⟩ := KeyExport.exportNewPath_result p.purpose p.network
    p.identityProvider p.identity p.account
  unfold ExportParams.keys ReleasesKeys
  simp only [hexport, Option.ite_none_right_eq_some, Option.some.injEq, EStateM.Result.ok.injEq,
    Prod.mk.injEq, and_true]
  exact ⟨fun h _ => h, fun h => h World.start⟩

/-- The review of a request is up: the union holds that request, or no witness. -/
structure ExportReviewUp (p : ExportParams) (w : World) : Prop where
  request : (w.global.view ExportPrivateKeyContext).isNewPath = true →
    (w.global.view ExportPrivateKeyContext).params = p
  approve : .sendPrivateKeysNewPath ∈ w.screen.actions

/-- The review of a command is up, with its rows. -/
structure ExportShownUp (cmd : Command) (w : World) : Prop
    extends ExportReviewUp (exportParams cmd) w where
  rows : ∀ r ∈ requestRows cmd, r ∈ w.screen.rows

/-! ## Drawing the review -/

/-- The texts that the review shows beside the indices. -/
structure DetailTexts (title detail keyTypes : Bytes) (ctx : ExportPrivateKeyContext) : Prop where
  title : ctx.displayDetailTitle.text = title
  detail : ctx.displayDetail.text = detail
  keyTypes : ctx.displayKeyTypes.text = keyTypes

theorem wp_setExportTexts_detail {ctx : ExportPrivateKeyContext}
    {title detail verb keyTypes : Bytes} (htitle : 0 ∉ title) (hdetail : 0 ∉ detail)
    (hkeyTypes : 0 ∉ keyTypes) :
    wp (setExportTexts ctx title detail verb keyTypes)
      (fun ctx' t => t = s ∧ DetailTexts title detail keyTypes ctx')
      (fun _ t => t = s) s := by
  unfold setExportTexts
  iterate 3
    rw [wp_bind]
    refine wp_reads _ (fun _ _ => ?_) fun _ _ => rfl
  rw [wp_bind, wp_memmove]
  refine ⟨fun hw => ?_, fun _ => rfl⟩
  rw [wp_bind, wp_memmove]
  refine ⟨fun hw' => ?_, fun _ => rfl⟩
  iterate 2
    rw [wp_bind]
    refine wp_reads _ (fun _ _ => ?_) fun _ _ => rfl
  rw [wp_bind, wp_memmove]
  refine ⟨fun hw'' => ?_, fun _ => rfl⟩
  rw [wp_pure]
  exact ⟨rfl, Buf.text_write hw htitle, Buf.text_write hw' hdetail, Buf.text_write hw'' hkeyTypes⟩

/-- The review keeps the request and shows its texts. -/
theorem wp_uiExportPrivateKeysNewPath_up {ctx : ExportPrivateKeyContext}
    (hctx : s.global.view ExportPrivateKeyContext = ctx) :
    wp uiExportPrivateKeysNewPath (fun _ t =>
        (∃ screen, t.log = s.log ++ [.drawn screen]) ∧ ExportReviewUp ctx.params t ∧
        ⟨ctx.displayDetailTitle.text, ctx.displayDetail.text⟩ ∈ t.screen.rows ∧
        row "Keys released" ctx.displayKeyTypes.text ∈ t.screen.rows)
      (fun _ t => t.screen = s.screen) s := by
  unfold uiExportPrivateKeysNewPath uiExportReview
  cases (Platform.backend : Backend) with
  | bagl =>
    simp only [wp_bind, wp_getCtx, hctx, wp_showScreen]
    refine ⟨⟨_, rfl⟩, ⟨fun _ => by rw [hctx], by simp [World.screenOf]⟩, ?_, ?_⟩
    · simp [World.screenOf, exportPairs]
    · simp [World.screenOf, exportPairs]
  | nbgl =>
    unfold composeExportPrivateKeyTitles nbglReview
    simp only [wp_bind, wp_getCtx, hctx, wp_throwIf, implies_true, true_and]
    intro _
    rw [wp_memmove]
    refine ⟨fun _ => ?_, fun _ => rfl⟩
    rw [wp_bind, wp_throwIf]
    refine ⟨fun _ => rfl, fun _ => ?_⟩
    rw [wp_bind, wp_memmove]
    refine ⟨fun _ => ?_, fun _ => rfl⟩
    simp only [wp_bind, wp_getCtx, wp_setCtx, InstructionContext.view_inject, wp_showScreen]
    refine ⟨⟨_, rfl⟩, ⟨fun _ => by rw [InstructionContext.view_inject]; rfl,
      by simp [World.screenOf]⟩, ?_, ?_⟩
    · simp [World.screenOf, exportPairs]
    · simp [World.screenOf, exportPairs]

omit [Platform] in
theorem wp_exportIndex {α : Type} (k : ℕ) {c : Prop} [Decidable c] {f : ℕ → App α}
    {Q : α → World → Prop}
    (hf : ∀ word, UInt32.ofNat word = exportIndex cmd k → ¬ c → 4 * k + 4 ≤ cmd.data.length →
      exportIndex cmd k &&& hardenedBit = 0 → wp (f word) Q (fun _ t => t.screen = s.screen) s) :
    wp (do
      throwIf c errorInvalidPath
      let word ← u4be cmd.data (4 * k)
      throwIf (UInt32.ofNat word &&& hardenedBit ≠ 0) errorInvalidPath
      f word) Q (fun _ t => t.screen = s.screen) s := by
  rw [wp_bind, wp_throwIf]
  refine ⟨fun _ => rfl, fun hc => ?_⟩
  rw [wp_bind, wp_u4be]
  refine ⟨fun hlength => ?_, fun _ => rfl⟩
  rw [wp_bind, wp_throwIf]
  exact ⟨fun _ => rfl, fun hplain => hf _ rfl hc hlength (not_ne_iff.mp hplain)⟩

omit [Platform] in
theorem wp_exportAccount :
    wp (if needsAccount cmd then do
        throwIf (cmd.data.length - 8 < 4) errorInvalidPath
        let account := UInt32.ofNat (← u4be cmd.data 8)
        throwIf (account &&& hardenedBit ≠ 0) errorInvalidPath
        return account
      else return 0xFFFFFFFF : App UInt32)
      (fun account t => t = s ∧ account = (exportParams cmd).account ∧
        (needsAccount cmd = true →
          12 ≤ cmd.data.length ∧ exportIndex cmd 2 &&& hardenedBit = 0))
      (fun _ t => t.screen = s.screen) s := by
  unfold exportParams
  refine wp_if (fun hneeds => ?_) fun hno => ?_
  · refine wp_exportIndex 2 (f := fun word => pure (UInt32.ofNat word))
      fun word hword _ hlength hplain => ?_
    rw [wp_pure, if_pos hneeds]
    exact ⟨rfl, hword, fun _ => ⟨hlength, hplain⟩⟩
  · rw [wp_pure, if_neg hno]
    exact ⟨rfl, rfl, fun hneeds => absurd hneeds hno⟩

omit [Platform] in
theorem keysToExport_isSome {p1 : UInt8}
    (h : ¬ (p1 ≠ p1IdentityCredentialCreation ∧ p1 ≠ p1AccountCreation ∧ p1 ≠ p1IdRecovery ∧
      p1 ≠ p1AccountCredentialDiscovery ∧ p1 ≠ p1CreationOfZkProof)) :
    (keysToExport p1).isSome := by
  unfold keysToExport
  split_ifs <;> simp_all

omit [Platform] in
theorem zero_not_mem_networkText (p2 : UInt8) :
    0 ∉ if p2 = p2Mainnet then ascii "Mainnet" else ascii "Testnet" := by
  split_ifs <;> decide

omit [Platform] in
theorem zero_not_mem_keyTypes (p1 : UInt8) : 0 ∉ (newPathPurposeText p1).2 := by
  unfold newPathPurposeText
  split_ifs <;> decide

/-- The handler throws in front of the screen, or it draws the review of a
    request that it has checked. -/
theorem handleExportPrivateKeyNewPath_up :
    wp (handleExportPrivateKeyNewPath cmd) (fun _ t =>
        (∃ screen, t.log = s.log ++ [.drawn screen]) ∧ ExportReviewUp (exportParams cmd) t ∧
        ExportRequest cmd ∧ ∀ r ∈ (requestRows cmd).tail, r ∈ t.screen.rows)
      (fun _ t => t.screen = s.screen) s := by
  unfold handleExportPrivateKeyNewPath
  rw [wp_bind, wp_throwIf]
  refine ⟨fun _ => rfl, fun hpurpose => ?_⟩
  rw [wp_bind, wp_throwIf]
  refine ⟨fun _ => rfl, fun hnetwork => ?_⟩
  dsimp only
  refine wp_exportIndex 0 fun _ hprovider _ _ hplain₀ => ?_
  refine wp_exportIndex 1 fun _ hidentity _ hlength hplain₁ => ?_
  rw [hprovider, hidentity, wp_bind]
  refine wp_mono (fun account t ht => ?_) (fun _ _ h => h) wp_exportAccount
  obtain ⟨rfl, haccount, hthird⟩ := ht
  have hrequest : ExportRequest cmd := by
    refine ⟨keysToExport_isSome hpurpose, ?_, ?_, ?_⟩
    · by_contra hno
      exact hnetwork (not_or.mp hno)
    · unfold exportIndices
      split_ifs with hneeds
      · exact (hthird hneeds).1
      · exact hlength
    · unfold exportIndices
      intro x hx
      split_ifs at hx with hneeds
      · simp only [List.mem_cons, List.not_mem_nil, or_false] at hx
        rcases hx with rfl | rfl | rfl
        · exact hplain₀
        · exact hplain₁
        · exact (hthird hneeds).2
      · simp only [List.mem_cons, List.not_mem_nil, or_false] at hx
        rcases hx with rfl | rfl
        · exact hplain₀
        · exact hplain₁
  rw [wp_bind, wp_getCtx, wp_bind]
  refine wp_reads _ (fun credid₁ _ => ?_) fun _ _ => rfl
  rw [wp_bind]
  refine wp_reads _ (fun credid₂ _ => ?_) fun _ _ => rfl
  rw [wp_bind]
  refine wp_reads _ (fun credid₃ _ => ?_) fun _ _ => rfl
  rw [wp_bind]
  refine wp_reads _ (fun credid₄ _ => ?_) fun _ _ => rfl
  rw [wp_bind]
  refine wp_mono (fun ctx t ht => ?_) (fun _ t ht => by rw [ht])
    (wp_setExportTexts_detail (by decide) (zero_not_mem_networkText cmd.p2)
      (zero_not_mem_keyTypes cmd.p1))
  obtain ⟨rfl, htexts⟩ := ht
  rw [wp_bind]
  refine wp_reads _ (fun credid _ => ?_) fun _ _ => rfl
  rw [wp_bind, wp_setCtx]
  refine wp_mono (fun _ u hu => ?_) (fun _ _ h => h)
    (wp_uiExportPrivateKeysNewPath_up (InstructionContext.view_inject _))
  obtain ⟨hdrawn, hup, hdetail, hkeys⟩ := hu
  rw [haccount] at hup
  refine ⟨hdrawn, hup, hrequest, ?_⟩
  rw [requestRows, List.tail_cons, ← htexts.detail, ← htexts.keyTypes]
  intro r hr
  rcases List.mem_pair.mp hr with rfl | rfl
  · unfold row
    rw [← htexts.title]
    exact hdetail
  · exact hkeys

/-- An INS 0x37 command that has come to a review. -/
structure ExportReviewed (w : World) (cmd : Command) (w' : World) : Prop where
  ins : cmd.ins = insExportPrivateKeyNew
  step : step w (.apdu cmd) = some w'
  pending : w'.replyPending = true

theorem dispatchInstruction_exportNew {isInitialCall : Bool}
    (h : cmd.ins = insExportPrivateKeyNew) :
    dispatchInstruction cmd isInitialCall = withData cmd (handleExportPrivateKeyNewPath cmd) := by
  simp only [dispatchInstruction, h]
  rfl

/-- The review is up, and shows its request. -/
theorem ExportReviewed.up (h : ExportReviewed w cmd w') : ExportShownUp cmd w' := by
  refine of_pending_step h.step h.pending fun isInitialCall s _ => ?_
  rw [dispatchInstruction_exportNew h.ins]
  refine wp_withData (fun _ hp => absurd hp Bool.false_ne_true) fun _ => ?_
  by_cases hrequest : ExportRequest cmd
  · refine wp_mono (fun _ t ht _ => ?_) (fun _ _ _ => trivial)
      (wp_and handleExportPrivateKeyNewPath_up (wp_handleExportPrivateKeyNewPath hrequest))
    obtain ⟨⟨-, hup, -, hrows⟩, -, hindices⟩ := ht
    refine ⟨hup, fun r hr => ?_⟩
    rcases List.mem_cons.mp hr with rfl | hr
    · exact hindices
    · exact hrows r hr
  · exact wp_mono (fun _ t ht => absurd ht.2.2.1 hrequest) (fun _ _ _ => trivial)
      handleExportPrivateKeyNewPath_up

/-! ## Interruptions -/

/-- The APDUs that leave no witness of their own: another request, refused or
    not, what does not get to write the union, and what leaves a union that
    reads as one without a witness. -/
def LeavesExport (w : World) : Input → Prop
  | .apdu cmd => cmd.ins = insExportPrivateKeyNew ∨ (∃ ins, w.latch = some ins ∧ ins ≠ cmd.ins) ∨
      RefusedForm w cmd ∨ cmd.ins ≠ insGetPublicKey ∧ cmd.ins ∉ contextInstructions ∨
      ∀ w' ∈ ungatedStep w (.apdu cmd),
        (w'.global.view ExportPrivateKeyContext).isNewPath = false
  | .badLength | .badClass => True
  | .activate _ => False

theorem ExportReviewUp.aside (h : ExportReviewUp p s) (hst : Aside s t) : ExportReviewUp p t where
  request := by rw [hst.global]; exact h.request
  approve := by rw [hst.screen]; exact h.approve

theorem ExportReviewUp.zeroed (h : ExportReviewUp p s) (hglobal : t.global = .zeroed)
    (hscreen : t.screen = s.screen) : ExportReviewUp p t where
  request := by
    rw [hglobal, InstructionContext.view_zeroed]
    exact fun hno => absurd hno Bool.false_ne_true
  approve := by rw [hscreen]; exact h.approve

omit [Platform] in
theorem Received.screen_log {isInitialCall : Bool} (hr : Received w cmd isInitialCall s) :
    s.screen = w.screen ∧ (∃ es, s.log = w.log ++ es) ∧
      (s.global = .zeroed ∨ s.global = w.global) := by
  cases hr with
  | first =>
    refine ⟨rfl, ⟨[.delivered, .claimed cmd.ins, .packet cmd.ins], ?_⟩, .inl rfl⟩
    simp [World.arrived, World.claimed, World.delivered]
  | next =>
    refine ⟨rfl, ⟨[.delivered, .packet cmd.ins], ?_⟩, .inr rfl⟩
    simp [World.arrived, World.delivered]

/-- Another request draws its own review, or it ends with a zeroed union. -/
theorem ExportReviewUp.export {isInitialCall : Bool} (h : ExportReviewUp p s)
    (hins : cmd.ins = insExportPrivateKeyNew) :
    wp (catching (dispatchInstruction cmd isInitialCall) endFlow)
      (fun _ t => (∃ screen, t.log = s.log ++ [.drawn screen]) ∨
        ExportReviewUp p t ∧ t.screen = s.screen) (fun _ _ => True) s := by
  rw [dispatchInstruction_exportNew hins, wp_catching]
  unfold withData ioSendSw
  refine wp_if (fun _ => ?_) fun _ => ?_
  · rw [wp_ioSendResponse]
    exact .inr ⟨h.aside aside_answered, rfl⟩
  · refine wp_mono (fun _ t ht => .inl ht.1) (fun e t ht => ⟨fun sw _ => ?_, fun _ => trivial⟩)
      handleExportPrivateKeyNewPath_up
    rw [wp_endFlow]
    exact .inr ⟨h.zeroed rfl ht, ht⟩

/-- What one APDU leaves of the review, while it stays up. -/
theorem ExportReviewUp.step (h : ExportReviewUp p w) (hi : LeavesExport w i)
    (hstays : StaysUp w i) (hs : ungatedStep w i = some w') :
    ExportReviewUp p w' ∧ w'.screen = w.screen := by
  by_cases hnone : ∃ cmd, i = .apdu cmd ∧
      (w'.global.view ExportPrivateKeyContext).isNewPath = false
  · obtain ⟨cmd, rfl, hnone⟩ := hnone
    have hscreen := hstays.sameScreen hs
    refine ⟨⟨fun hwitness => ?_, by rw [hscreen]; exact h.approve⟩, hscreen⟩
    exact absurd (hnone.symm.trans hwitness) Bool.false_ne_true
  refine of_ungatedStep (P := fun t => (∀ e ∈ t.log.drop w.log.length, e.isDrawn = false) →
    ExportReviewUp p t ∧ t.screen = w.screen) hs ?_ (hstays w' hs)
  cases i with
  | activate c => exact hi.elim
  | badLength | badClass =>
    simp only [runInput, deliver, ioSendSw, wp_bind, wp_modify, wp_record, wp_ioSendResponse]
    exact fun _ => ⟨h.aside ⟨⟨rfl, rfl, rfl⟩, rfl⟩, trivial⟩
  | apdu cmd =>
    refine wp_apdu (fun _ _ _ _ => ⟨h.aside aside_switched, rfl⟩) fun isInitialCall s hr => ?_
    obtain ⟨hscreen, ⟨es, hlog⟩, hglobal⟩ := hr.screen_log
    have hup : ExportReviewUp p s := by
      rcases hglobal with hzero | hsame
      · exact h.zeroed hzero hscreen
      · exact ⟨by rw [hsame]; exact h.request, by rw [hscreen]; exact h.approve⟩
    by_cases hins : cmd.ins = insExportPrivateKeyNew
    · refine wp_mono (fun _ t ht hnone => ?_) (fun _ _ h => h) (hup.export hins)
      rcases ht with ⟨screen, hdrawn⟩ | ⟨ht, hkept⟩
      · have hmem : .drawn screen ∈ t.log.drop w.log.length := by
          rw [hdrawn, hlog, List.append_assoc, List.drop_left]
          simp
        exact absurd (hnone _ hmem).symm Bool.false_ne_true
      · exact ⟨ht, hkept.trans hscreen⟩
    · have hcmd : RefusedForm s cmd ∨ cmd.ins ≠ insGetPublicKey ∧
          cmd.ins ∉ contextInstructions := by
        rcases hi with hi | ⟨ins, hl, hne⟩ | hrefused | hquery | hzero
        · exact absurd hi hins
        · exact absurd (hr.latch_eq hl) hne
        · refine .inl ((RefusedForm.congr ?_).mpr hrefused)
          cases hr <;> rfl
        · exact .inr hquery
        · exact absurd ⟨cmd, rfl, hzero w' hs⟩ hnone
      rw [wp_catching]
      refine wp_mono (fun _ t ht _ => ⟨hup.aside ht, ht.screen.trans hscreen⟩)
        (fun _ _ hE => hE.elim) (dispatchInstruction_aside (E := fun _ _ => False) hcmd)

theorem ExportShownUp.step (h : ExportShownUp cmd w) (hi : LeavesExport w i)
    (hstays : StaysUp w i) (hs : ungatedStep w i = some w') : ExportShownUp cmd w' := by
  obtain ⟨ht, hscreen⟩ := h.toExportReviewUp.step hi hstays hs
  exact ⟨ht, by rw [hscreen]; exact h.rows⟩

/-! ## Approval -/

/-- Approving the review releases the keys of its request, or none. -/
def ReleasesReviewed (p : ExportParams) (w : World) : Prop :=
  ∃ v data sw, step w (.activate .sendPrivateKeysNewPath) = some v ∧ Replied w v data sw ∧
    (data = [] ∨ ReleasesKeys p data)

/-- Approving the request that the union holds sends its keys, or an error. -/
theorem wp_sendPrivateKeysNewPath_request {ctx : ExportPrivateKeyContext}
    (hctx : s.global.view ExportPrivateKeyContext = ctx) (hnew : ctx.isNewPath = true) :
    wp sendPrivateKeysNewPath (fun _ t => ∃ data sw, Replied s t data sw ∧
      ((∀ out, ReleasesKeys ctx.params out → data = out) ∧
        (data = [] ∨ ReleasesKeys ctx.params data))) (fun _ _ => False) s := by
  unfold sendPrivateKeysNewPath
  rw [wp_bind, wp_getCtx, hctx, if_pos hnew]
  obtain ⟨r, out, hout, hexport⟩ := KeyExport.exportNewPath_result ctx.newPathPurpose
    ctx.newPathNetwork ctx.newPathIdentityProvider ctx.newPathIdentity ctx.newPathAccount
  have hsame {keys : Bytes} (hkeys : ReleasesKeys ctx.params keys) :
      r = swoSuccess ∧ out = keys := by
    have h := (hexport s).symm.trans (hkeys s)
    simpa using h
  rw [wp_bind]
  unfold wp
  rw [hexport s]
  show wp (if r = swoSuccess then _ else _) _ _ s
  refine wp_if (fun hr => ?_) fun hr => ?_
  · have hkeys : ReleasesKeys ctx.params out := by
      subst hr
      exact hexport
    have hfits : 0 + out.length ≤ 195 := by omega
    rw [wp_bind, wp_memmove]
    refine ⟨fun _ => ?_, fun hno => absurd hfits hno⟩
    simp only [wp_bind, wp_setCtx, wp_sendSuccess]
    exact ⟨out, swoSuccess, ⟨[], _, List.append_assoc _ _ _, rfl, rfl⟩,
      fun _ h => (hsame h).2, .inr hkeys⟩
  · simp only [wp_bind, wp_setCtx, wp_sendRejection, wp_uiMenuMain]
    exact ⟨[], r, ⟨[.released], _, by simp [World.toMenu]; rfl, rfl, rfl⟩,
      fun _ h => absurd (hsame h).1 hr, .inl rfl⟩

theorem wp_sendPrivateKeysNewPath_released
    (hrequest : (s.global.view ExportPrivateKeyContext).isNewPath = true →
      (s.global.view ExportPrivateKeyContext).params = p) :
    wp sendPrivateKeysNewPath (fun _ t => ∃ data sw, Replied s t data sw ∧
      (data = [] ∨ ReleasesKeys p data)) (fun _ _ => False) s := by
  by_cases hnew : (s.global.view ExportPrivateKeyContext).isNewPath = true
  · refine wp_mono (fun _ t ht => ?_) (fun _ _ h => h) (wp_sendPrivateKeysNewPath_request rfl hnew)
    obtain ⟨data, sw, hreply, -, hdata⟩ := ht
    rw [hrequest hnew] at hdata
    exact ⟨data, sw, hreply, hdata⟩
  · unfold sendPrivateKeysNewPath
    rw [wp_bind, wp_getCtx, if_neg hnew]
    simp only [wp_bind, wp_sendRejection, wp_uiMenuMain]
    exact ⟨[], errorInvalidState, ⟨[.released], _, by simp [World.toMenu]; rfl, rfl, rfl⟩, .inl rfl⟩

/-- The callback, as the user runs it. -/
theorem step_sendPrivateKeysNewPath {P : Bytes → Prop}
    (happrove : .sendPrivateKeysNewPath ∈ w.screen.actions)
    (h : wp sendPrivateKeysNewPath (fun _ t => ∃ data sw,
        Replied (w.activated .sendPrivateKeysNewPath) t data sw ∧ P data)
      (fun _ _ => False) (w.activated .sendPrivateKeysNewPath)) :
    ∃ v data sw, step w (.activate .sendPrivateKeysNewPath) = some v ∧ Replied w v data sw ∧
      P data := by
  have hcallback : wp (runCallback .sendPrivateKeysNewPath) (fun _ t => ∃ data sw,
      Replied w t data sw ∧ P data) (fun _ _ => False) (w.activated .sendPrivateKeysNewPath) := by
    change wp (uxRunGuarded sendPrivateKeysNewPath) _ _ _
    unfold uxRunGuarded
    rw [wp_catching]
    refine wp_mono (fun _ t ht => ?_) (fun _ _ hE => hE.elim) h
    obtain ⟨data, sw, hreply, hdata⟩ := ht
    exact ⟨data, sw, hreply.of_log [.activated .sendPrivateKeysNewPath] rfl rfl, hdata⟩
  obtain ⟨v, hs, data, sw, hreply, hdata⟩ := step_activate happrove hcallback
  exact ⟨v, data, sw, hs, hreply, hdata⟩

theorem ExportReviewUp.releases (h : ExportReviewUp p w) : ReleasesReviewed p w :=
  step_sendPrivateKeysNewPath h.approve (wp_sendPrivateKeysNewPath_released h.request)

/-- As long as the review stays up and no other instruction gets to write the
    union, it shows the request whose keys an approval releases. -/
theorem export_releases_reviewed {inputs : List Input} (hreviewed : ExportReviewed w cmd w')
    (hleaves : Along ungatedStep (fun w i => LeavesExport w i ∧ StaysUp w i) w' inputs)
    (hrun : run ungatedStep w' inputs = some u) :
    (∀ r ∈ requestRows cmd, r ∈ u.screen.rows) ∧ ReleasesReviewed (exportParams cmd) u := by
  have hup : ExportShownUp cmd u :=
    run_invariant (fun s i t h hi hs => h.step hi.1 hi.2 hs) hreviewed.up hleaves hrun
  exact ⟨hup.rows, hup.toExportReviewUp.releases⟩

end Release

/-! ## A request that another instruction leaves -/

/-- The byte of a state in the union. -/
def PltState.byte : PltState → UInt8
  | .unset => 0
  | .initial => 80
  | .cbor => 81

/-- A word in the byte order of the device. -/
def leWord (bs : Bytes) (off : ℕ) : UInt32 := UInt32.ofNat (beNat ((bs.drop off).take 4).reverse)

/-- The context of a token transaction in memory, up to its CBOR buffer. -/
def SignPltContext.memory (ctx : SignPltContext) : Bytes :=
  [ctx.state.byte, 0, 0, 0] ++ (toBe 4 ctx.cborTotalLength).reverse ++
    (toBe 4 ctx.cborReceived).reverse ++ ctx.tokenId.bytes ++ [UInt8.ofNat ctx.tokenIdLength] ++
      ctx.cborBuf.bytes

/-- What the export reads in the same bytes. -/
def ExportPrivateKeyContext.ofMemory (bs : Bytes) : ExportPrivateKeyContext where
  displayReviewOperation := Buf.ofBytes 48 bs
  displayReviewVerb := Buf.ofBytes 24 (bs.drop 48)
  displaySignVerb := Buf.ofBytes 26 (bs.drop 72)
  displayCredidTitle := Buf.ofBytes 15 (bs.drop 98)
  displayCredid := Buf.ofBytes 22 (bs.drop 113)
  displaySign := Buf.ofBytes 48 (bs.drop 135)
  displayDetailTitle := Buf.ofBytes 16 (bs.drop 183)
  displayDetail := Buf.ofBytes 24 (bs.drop 199)
  displayKeyTypes := Buf.ofBytes 40 (bs.drop 223)
  exportBoth := bs.getD 263 0 != 0
  exportSeed := bs.getD 264 0 != 0
  isNewPath := bs.getD 265 0 != 0
  newPathPurpose := bs.getD 266 0
  newPathNetwork := bs.getD 267 0
  newPathIdentityProvider := leWord bs 268
  newPathIdentity := leWord bs 272
  newPathAccount := leWord bs 276
  outputPrivateKeys := Buf.ofBytes 195 (bs.drop 280)
  privateKeysLength := (bs.getD 475 0).toNat

/-- The export's view of the union: of the other members, only token
    transactions are laid out. -/
def InstructionContext.overlay : InstructionContext → ExportPrivateKeyContext
  | .signPlt ctx => .ofMemory ctx.memory
  | _ => default

open Classical in
/-- A device that lays its union out. -/
@[reducible] noncomputable def overlayDevice : Platform :=
  { device .nbgl with
    residue := fun {β} b α _ =>
      if h : β = InstructionContext ∧ α = ExportPrivateKeyContext then
        cast h.2.symm (InstructionContext.overlay (cast h.1 b))
      else default }

theorem view_overlay (ctx : SignPltContext) :
    letI : Platform := overlayDevice
    (InstructionContext.signPlt ctx).view ExportPrivateKeyContext = .ofMemory ctx.memory := by
  let : Platform := overlayDevice
  have hresidue : Platform.residue (InstructionContext.signPlt ctx) ExportPrivateKeyContext =
      .ofMemory ctx.memory :=
    dif_pos ⟨rfl, rfl⟩
  rw [← hresidue]
  rfl

/-- Asks for the keys to recover an identity. -/
def recoveryExport (identityProvider identity : UInt32) : Command where
  ins := insExportPrivateKeyNew
  p1 := p1IdRecovery
  p2 := p2Mainnet
  data := [identityProvider, identity].flatMap fun index : UInt32 => toBe 4 index.toNat
  lc_le := by simp

/-- A request that no command asks for. -/
def forgedParams : ExportParams := ⟨p1IdRecovery, p2Mainnet, 3, 4, 0⟩

/-- The packets of a token transaction whose operations read as that request,
    behind a query that frees the latch. -/
def forgingInputs : List Input :=
  [.apdu appNameQuery, .apdu (pltInitPacket 300), .apdu (pltContPacket (List.replicate 123 0 ++
    [1, p1IdRecovery, p2Mainnet, 3, 0, 0, 0, 4, 0, 0, 0, 0, 0, 0, 0]))]

/-- The request is on screen, and another one lies in the union. -/
theorem forged_request :
    letI : Platform := overlayDevice
    ∃ w u ctx, ExportReviewed World.start (recoveryExport 1 2) w ∧
      Along ungatedStep StaysUp w forgingInputs ∧ run ungatedStep w forgingInputs = some u ∧
        u.replyPending = false ∧ .sendPrivateKeysNewPath ∈ u.screen.actions ∧
          u.global = .signPlt ctx ∧ (ExportPrivateKeyContext.ofMemory ctx.memory).isNewPath = true ∧
            (ExportPrivateKeyContext.ofMemory ctx.memory).params = forgedParams := by
  let : Platform := overlayDevice
  have hrun : ((step World.start (.apdu (recoveryExport 1 2))).bind fun w =>
      (run ungatedStep w forgingInputs).bind fun u =>
        (Member.project u.global : Option SignPltContext).map fun ctx => (w, u, ctx)).any (fun x =>
          decide (x.1.replyPending = true ∧ Along ungatedStep StaysUp x.1 forgingInputs ∧
            x.2.1.replyPending = false ∧ .sendPrivateKeysNewPath ∈ x.2.1.screen.actions ∧
            x.2.1.global = .signPlt x.2.2 ∧
            (ExportPrivateKeyContext.ofMemory x.2.2.memory).isNewPath = true ∧
            (ExportPrivateKeyContext.ofMemory x.2.2.memory).params = forgedParams)) = true := by
    decide +kernel
  obtain ⟨⟨w, u, ctx⟩, hx, hcheck⟩ := (Option.any_eq_true _ _).mp hrun
  obtain ⟨w', hw, hx⟩ := Option.bind_eq_some_iff.mp hx
  obtain ⟨u', hu, hx⟩ := Option.bind_eq_some_iff.mp hx
  obtain ⟨ctx', -, hpair⟩ := Option.map_eq_some_iff.mp hx
  cases hpair
  obtain ⟨hp, hstays, hchecks⟩ := of_decide_eq_true hcheck
  exact ⟨w, u, ctx, ⟨rfl, hw, hp⟩, hstays, hu, hchecks⟩

/-- An approval behind these packets sends keys that the review did not show. -/
theorem export_releases_forged :
    letI : Platform := overlayDevice
    ¬ ∀ w cmd w' inputs u, ExportReviewed w cmd w' → (∀ i ∈ inputs, i.isPacket) →
      Along ungatedStep StaysUp w' inputs → run ungatedStep w' inputs = some u →
        ReleasesReviewed (exportParams cmd) u := by
  let : Platform := overlayDevice
  obtain ⟨w, u, ctx, hreviewed, hstays, hu, hp, happrove, hglobal, hnew, hparams⟩ := forged_request
  have hctx : (u.activated .sendPrivateKeysNewPath).global.view ExportPrivateKeyContext =
      .ofMemory ctx.memory := by
    rw [← view_overlay ctx, ← hglobal]
    rfl
  have hkeys : ∃ out, forgedParams.keys = some out ∧ out ≠ [] ∧
      (exportParams (recoveryExport 1 2)).keys ≠ some out := by
    have hcheck : forgedParams.keys.any (fun out =>
        decide (out ≠ [] ∧ (exportParams (recoveryExport 1 2)).keys ≠ some out)) = true := by
      decide +kernel
    obtain ⟨out, hout, hne⟩ := (Option.any_eq_true _ _).mp hcheck
    exact ⟨out, hout, of_decide_eq_true hne⟩
  intro h
  obtain ⟨v, data, sw, hv, hreply, hdata⟩ := h World.start (recoveryExport 1 2) w forgingInputs u
    hreviewed (by simp [forgingInputs, Input.isPacket]) hstays hu
  obtain ⟨v', data', sw', hv', hreply', hforged, -⟩ := step_sendPrivateKeysNewPath happrove
    (wp_sendPrivateKeysNewPath_request hctx hnew)
  obtain rfl : v' = v := Option.some.inj (hv'.symm.trans hv)
  obtain ⟨out, hout, hne, hother⟩ := hkeys
  rw [hparams] at hforged
  obtain rfl : data = out :=
    (hreply.data_eq hreply').trans (hforged out (ExportParams.keys_eq_some.mp hout))
  rcases hdata with hnil | hreviewed'
  · exact hne hnil
  · exact hother (ExportParams.keys_eq_some.mpr hreviewed')

/-- A query that is refused, and the first packet of a token transaction. -/
def refusedInputs : List Input := [.apdu appNameQuery, .apdu (pltInitPacket 300)]

/-- Behind these packets the keys of the review are sent. -/
theorem export_releases_refusal :
    letI : Platform := device .nbgl
    ∃ w u, ExportReviewed World.start (recoveryExport 1 2) w ∧
      run ungatedStep w refusedInputs = some u ∧
        (∀ r ∈ requestRows (recoveryExport 1 2), r ∈ u.screen.rows) ∧
          ReleasesReviewed (exportParams (recoveryExport 1 2)) u := by
  let : Platform := device .nbgl
  have hrun : ((step World.start (.apdu (recoveryExport 1 2))).bind fun w =>
      (run ungatedStep w refusedInputs).map fun u => (w, u)).any (fun x =>
        decide (x.1.replyPending = true ∧ x.1.latch = some insExportPrivateKeyNew ∧
          Along ungatedStep StaysUp x.1 refusedInputs ∧
          ∀ v ∈ ungatedStep x.1 (.apdu appNameQuery),
          ∀ u ∈ ungatedStep v (.apdu (pltInitPacket 300)),
            (u.global.view ExportPrivateKeyContext).isNewPath = false)) = true := by
    decide +kernel
  obtain ⟨⟨w, u⟩, hx, hcheck⟩ := (Option.any_eq_true _ _).mp hrun
  obtain ⟨w', hw, hx⟩ := Option.bind_eq_some_iff.mp hx
  obtain ⟨u', hu, hpair⟩ := Option.map_eq_some_iff.mp hx
  cases hpair
  obtain ⟨hp, hlatch, ⟨hstays, hstays'⟩, hzero⟩ := of_decide_eq_true hcheck
  have hreviewed : ExportReviewed World.start (recoveryExport 1 2) w := ⟨rfl, hw, hp⟩
  have hleaves : Along ungatedStep (fun w i => LeavesExport w i ∧ StaysUp w i) w refusedInputs := by
    refine ⟨⟨.inr (.inl ⟨_, hlatch, by decide⟩), hstays⟩, fun v hv => ?_⟩
    exact ⟨⟨.inr (.inr (.inr (.inr (hzero v hv)))), (hstays' v hv).1⟩, fun _ _ => trivial⟩
  exact ⟨w, u, hreviewed, hu, export_releases_reviewed hreviewed hleaves hu⟩

end Concordium
