/-
  What the reviews of plain transfers and of registered data determine.

  Registered data is reviewed in two screens, the header before any data is sent
  and the data when all of it has arrived; what is signed has then been shown on
  the two.  For it and for the transfers, two reviews that look alike are of the
  same content.
-/
import Concordium.CcdTransfers

namespace Concordium

open Buffer Cbor Union Wp Runs

set_option synthInstance.maxSize 1000000
set_option synthInstance.maxHeartbeats 100000

section Data
variable [Platform] {cmd first : Command} {s t w : World} {Q : Unit → World → Prop}

/-! ## The two screens -/

/-- The screen that shows the header. -/
def dataIntroRows (account : AccountSender) : List Row :=
  accountReview (line "Review transaction" "") (line "Review transaction to" "register data")
    "Sender" "Continue with transaction" account []

/-- The screen that shows the data. -/
def dataRows (cbor : CborContext) : List Row :=
  match Platform.backend with
  | .nbgl => line "Review Data" "" :: [row "Data type" cbor.typeLabel.text,
      row "Data" cbor.display.text] ++ [⟨ascii "Sign transaction", []⟩]
  | .bagl => [row "Data type" cbor.typeLabel.text, row "Data" cbor.display.text]

/-- A data registration as its reviews show it. -/
structure DataReview where
  account : AccountSender
  cbor : CborContext
  header : Bytes
  blob : Bytes
  header_shown : HeaderShown account header
  blob_shown : BlobShown cbor blob

namespace DataReview

/-- What has been fed to the transaction hash. -/
def payload (r : DataReview) : Bytes := r.header ++ (kindRegisterData :: r.blob)

/-- What the user has seen. -/
def rows (r : DataReview) : List Row := dataIntroRows r.account ++ dataRows r.cbor

theorem withoutFees_rows (r : DataReview) : withoutFees r.rows = r.rows := by
  rw [rows, withoutFees_append]
  unfold dataIntroRows accountReview dataRows
  cases hb : (Platform.backend : Backend) with
  | nbgl =>
    simp only [List.cons_append, List.append_nil, List.nil_append]
    rw [withoutFees_cons (by decide), withoutFees_append,
      withoutFees_accountHeaderPairs (by decide), withoutFees_cons (by decide),
      withoutFees_cons (by decide), withoutFees_row (by decide), withoutFees_row (by decide),
      withoutFees_cons (by decide), withoutFees_nil]
    rfl
  | bagl =>
    simp only [List.cons_append, List.append_nil]
    rw [withoutFees_cons (by decide), withoutFees_accountHeaderPairs (by decide),
      withoutFees_row (by decide), withoutFees_row (by decide), withoutFees_nil]
    rfl

theorem dataRows_injective {cbor cbor' : CborContext} (h : dataRows cbor = dataRows cbor') :
    cbor.typeLabel.text = cbor'.typeLabel.text ∧ cbor.display.text = cbor'.display.text := by
  unfold dataRows row at h
  cases hb : (Platform.backend : Backend) <;> rw [hb] at h <;> simpa using h

/-- Data registrations whose rows agree differ in nonce, payload size and expiry
    only. -/
theorem content_unique (hx : ExactTexts) {r r' : DataReview} (h : r.rows = r'.rows) :
    signedContent r.payload = signedContent r'.payload := by
  have hlength : (dataIntroRows r.account).length = (dataIntroRows r'.account).length := by
    unfold dataIntroRows accountReview accountHeaderPairs
    cases (Platform.backend : Backend) <;> rfl
  obtain ⟨hintro, hdata⟩ := List.append_inj h hlength
  obtain ⟨haccount, -⟩ := accountReview_injective hintro
  obtain ⟨hlabel, hdisplay⟩ := dataRows_injective hdata
  rw [payload, payload, signedContent_append r.header_shown.length,
    signedContent_append r'.header_shown.length,
    r.header_shown.unique_of_pairs hx r'.header_shown haccount,
    r.blob_shown.unique r'.blob_shown hlabel hdisplay]

end DataReview

/-! ## Where a data registration stands -/

/-- The data that the flow reads. -/
def World.registered (w : World) : WithDataBlob SignRegisterData :=
  w.global.view (WithDataBlob SignRegisterData)

theorem registered_of {ctx : WithDataBlob SignRegisterData} (h : w.global = Member.inject ctx) :
    w.registered = ctx := by
  rw [World.registered, h, InstructionContext.view_inject]

omit [Platform] in
/-- The length of the data, as it is hashed. -/
def dataLengthBytes (first : Command) : Bytes := ((transactionBody first).drop 61).take 2

/-- The data is arriving: `got` has been hashed of it. -/
structure DataArriving (first : Command) (got : Bytes) (w : World) : Prop where
  header : HeaderShown w.accountSender (transactionHeader first)
  state : w.registered.tx.state = .payloadStart ∧ got = [] ∨
    w.registered.tx.state = .payload ∧ w.registered.cborContext.cborBuf = got
  length : (dataLengthBytes first).length = 2
  left : w.registered.cborContext.cborLength = w.registered.tx.dataLength
  declared : w.registered.tx.dataLength + got.length = beNat (dataLengthBytes first)
  hashed : w.txState.hash =
    transactionHeader first ++ (kindRegisterData :: (dataLengthBytes first ++ got))

/-- Where the flow stands between packets. -/
inductive DataStage (w : World) : Prop where
  | unopened (hacc : Concordium.accepted w.log = []) (hs : w.registered.tx.state = .unset)
  | arriving {first : Command} {got : Bytes} (h : DataArriving first got w)
    (hacc : Concordium.accepted w.log = dataIntroRows w.accountSender)

/-- All the data has been hashed and shown. -/
structure DataComplete (r : DataReview) (w : World) : Prop where
  hashed : w.txState.hash = r.payload
  left : w.registered.tx.dataLength = 0
  seen : Concordium.accepted w.log ++ onScreen w.log = r.rows

/-- Where it stands under review. -/
inductive DataUnderReview (w : World) : Prop where
  | intro {first : Command} (h : DataArriving first [] w)
    (hacc : Concordium.accepted w.log = [])
    (hscreen : onScreen w.log = dataIntroRows w.accountSender)
    (hactions : ∀ c ∈ w.screen.actions, c = .sendSuccessNoIdle ∨ c = .rejectStagedReview)
  | confirming {r : DataReview} (h : DataComplete r w)
    (hactions : w.screen.actions = [.registerDataOnDataConfirm])
  | signing {r : DataReview} (h : DataComplete r w) (hscreen : w.screen.rows = onScreen w.log)
    (hactions : w.screen.actions = signFlowShared)

/-- The header is under review. -/
theorem wp_uiRegisterDataInitialDisplay {E : Exception → World → Prop}
    (h : DataArriving first [] s) (hacc : Concordium.accepted s.log = [])
    (hQ : ∀ t, t.replyPending = s.replyPending → DataUnderReview t → Q () t) :
    wp uiRegisterDataInitialDisplay Q E s := by
  have shown (actions : List Callback)
      (hactions : ∀ c ∈ actions, c = .sendSuccessNoIdle ∨ c = .rejectStagedReview) :
      wp (showScreen (dataIntroRows s.accountSender) actions) Q E s := by
    rw [wp_showScreen]
    refine hQ _ rfl (.intro (show DataArriving first [] _ from ⟨h.header, h.state, h.length, h.left,
      h.declared, h.hashed⟩) ?_ ?_ hactions)
    · simp [Event.accepts, hacc]
    · simp [Event.accepts, World.screenOf]
  unfold uiRegisterDataInitialDisplay
  simp only [wp_bind, wp_get]
  unfold dataIntroRows accountReview at shown
  cases hb : (Platform.backend : Backend) with
  | nbgl =>
    rw [hb] at shown
    simp only [List.append_nil] at shown
    exact shown _ (by simp)
  | bagl =>
    rw [hb] at shown
    simp only [List.append_nil] at shown
    exact shown _ (by simp)

/-- The steps of the screen that shows the data. -/
def dataActions : List Callback :=
  match Platform.backend with
  | .nbgl => signFlowShared
  | .bagl => [.registerDataOnDataConfirm]

/-- Complete data is shown to be signed. -/
theorem uiRegisterDataPayloadDisplay_complete {E : Exception → World → Prop}
    (hleft : s.registered.tx.dataLength = 0) :
    wp uiRegisterDataPayloadDisplay Q E s =
      wp (showScreen (dataRows s.registered.cborContext) dataActions) Q E s := by
  have hzero : ¬ 0 < (s.global.view (WithDataBlob SignRegisterData)).tx.dataLength :=
    Nat.not_lt.mpr hleft.le
  unfold uiRegisterDataPayloadDisplay dataRows dataActions
  rw [wp_bind, wp_getCtx]
  cases hb : (Platform.backend : Backend) with
  | nbgl =>
    dsimp only
    rw [if_neg hzero]
    rfl
  | bagl => rfl

theorem wp_uiRegisterDataPayloadDisplay {E : Exception → World → Prop} (r : DataReview)
    (hhash : s.txState.hash = r.payload) (hleft : s.registered.tx.dataLength = 0)
    (hcbor : r.cbor = s.registered.cborContext)
    (hacc : Concordium.accepted s.log = dataIntroRows r.account)
    (hQ : ∀ t, t.replyPending = s.replyPending → DataUnderReview t → Q () t) :
    wp uiRegisterDataPayloadDisplay Q E s := by
  rw [uiRegisterDataPayloadDisplay_complete hleft, ← hcbor, wp_showScreen]
  have complete : DataComplete r { s with
      screen := s.screenOf (dataRows r.cbor) dataActions
      log := s.log ++ [.drawn (s.screenOf (dataRows r.cbor) dataActions)] } := by
    refine ⟨hhash, hleft, ?_⟩
    simp [Event.accepts, World.screenOf, hacc, DataReview.rows]
  refine hQ _ rfl ?_
  cases hb : (Platform.backend : Backend) with
  | nbgl =>
    refine .signing complete ?_ (by simp [World.screenOf, dataActions, hb])
    simp [Event.accepts, World.screenOf]
  | bagl => exact .confirming complete (by simp [World.screenOf, dataActions, hb])

/-! ## Packets -/

/-- The first packet. -/
theorem wp_registerDataInitial (hacc : Concordium.accepted s.log = [])
    (hQ : ∀ t, t.replyPending = s.replyPending → DataUnderReview t → Q () t) :
    wp (registerDataInitial cmd) Q (fun _ _ => True) s := by
  unfold registerDataInitial
  rw [wp_bind]
  refine wp_openTransaction fun t ht => ?_
  rw [wp_bind, wp_throwIf]
  refine ⟨fun _ => trivial, fun hlong => ?_⟩
  rw [wp_bind, wp_u2be]
  refine ⟨fun _ => ?_, fun _ => trivial⟩
  have hlength : (dataLengthBytes cmd).length = 2 := by
    rw [dataLengthBytes, List.length_take]
    omega
  rw [List.drop_zero, wp_bind, wp_throwIf]
  refine ⟨fun _ => trivial, fun _ => ?_⟩
  rw [wp_bind, wp_slice]
  refine ⟨fun _ => ?_, fun _ => trivial⟩
  rw [List.drop_zero, wp_bind, wp_updateHash, wp_bind, wp_modifyCtx]
  refine wp_uiRegisterDataInitialDisplay ⟨ht.header, .inl ⟨?_, rfl⟩, hlength, ?_, ?_, ?_⟩ ?_
    fun v hv hreview => hQ v (hv.trans ht.reply) hreview
  · rw [registered_of rfl]
  · rw [registered_of rfl]
  · rw [registered_of rfl]
    rfl
  · simp only [ht.hash, List.append_nil, List.append_assoc]
    rfl
  · simp [Event.accepts, ht.accepted, hacc]

/-- The data goes on, or is complete and under review. -/
theorem DataArriving.read {got : Bytes} {cbor : CborContext} (hc : DecodesItems Platform.cbor)
    (h : DataArriving first got s)
    (hacc : Concordium.accepted s.log = dataIntroRows s.accountSender)
    (hfits : cmd.data.length ≤ s.registered.tx.dataLength) (hbuf : cbor.cborBuf = got ++ cmd.data)
    (hlength : cbor.cborLength = s.registered.tx.dataLength - cmd.data.length)
    (hmore : ∀ t, t.replyPending = false → DataStage t → Q () t)
    (hdone : ∀ t, t.replyPending = s.replyPending → DataUnderReview t → Q () t)
    (hfree : ∀ t, t.latch = none → Q () t) :
    wp (do
      setCtx (⟨⟨s.registered.tx.dataLength - cmd.data.length, .payload⟩, (cborRead cbor).2⟩ :
        WithDataBlob SignRegisterData)
      if (cborRead cbor).1 ≠ swoSuccess then sendRejection (cborRead cbor).1
      else if s.registered.tx.dataLength - cmd.data.length = 0 then uiRegisterDataPayloadDisplay
      else sendSuccessNoIdle) Q (fun _ _ => True)
      { s with
        txState := { s.txState with hash := s.txState.hash ++ cmd.data }
        log := s.log ++ [.hashUpdate cmd.data] } := by
  have hdeclared := h.declared
  have hhash : s.txState.hash ++ cmd.data = transactionHeader first ++
      (kindRegisterData :: (dataLengthBytes first ++ (got ++ cmd.data))) := by
    rw [h.hashed, List.append_assoc, List.cons_append, List.append_assoc]
  rw [wp_bind, wp_setCtx]
  by_cases hzero : cbor.cborLength = 0
  · have hparsed : BlobParsed cbor (cborRead cbor) := by
      rw [cborRead, if_pos hzero]
      exact blobParsed_parsedCbor hc cbor
    generalize cborRead cbor = out at hparsed
    obtain ⟨sw, out⟩ := out
    dsimp only at hparsed ⊢
    refine wp_if (fun _ => ?_) fun hsw => ?_
    · rw [wp_sendRejection]
      exact hfree _ rfl
    · obtain ⟨-, -, ⟨-, i, hi, hencode, hshows⟩ | ⟨hno, -⟩⟩ := hparsed
      · rw [if_pos (hlength.symm.trans hzero)]
        refine wp_uiRegisterDataPayloadDisplay ⟨s.accountSender, out, transactionHeader first,
          dataLengthBytes first ++ (got ++ cmd.data), h.header, i, _, hi, hshows, h.length, ?_,
          ?_⟩ hhash ?_ ?_ ?_ hdone
        · rw [← hencode, hbuf, List.length_append]
          omega
        · rw [← hbuf, hencode]
        · rw [registered_of rfl]
          exact hlength.symm.trans hzero
        · rw [registered_of rfl]
        · simp [Event.accepts, hacc]
      · exact absurd (not_not.mp hsw) hno
  · rw [cborRead_incomplete hzero, if_neg (by simp), if_neg (by rwa [← hlength])]
    change wp (ioSendResponse [] swoSuccess) _ _ _
    rw [wp_ioSendResponse]
    refine hmore _ rfl (.arriving (show DataArriving first (got ++ cmd.data) _ from
      ⟨h.header, .inr ⟨?_, ?_⟩, h.length, ?_, ?_, hhash⟩) ?_)
    · rw [registered_of rfl]
    · rw [registered_of rfl, hbuf]
    · rw [registered_of rfl, hlength]
    · rw [registered_of rfl, List.length_append]
      dsimp only
      omega
    · simp [Event.accepts, hacc]

/-- A data packet. -/
theorem wp_registerDataData (hc : DecodesItems Platform.cbor) (h : DataStage s)
    (hmore : ∀ t, t.replyPending = false → DataStage t → Q () t)
    (hdone : ∀ t, t.replyPending = s.replyPending → DataUnderReview t → Q () t)
    (hfree : ∀ t, t.latch = none → Q () t) :
    wp (registerDataData cmd) Q (fun _ _ => True) s := by
  unfold registerDataData
  rw [wp_bind, wp_getCtx]
  change wp (do
    throwIf (s.registered.tx.dataLength < cmd.data.length) errorInvalidTransaction
    _) _ _ _
  rw [wp_bind, wp_throwIf]
  refine ⟨fun _ => trivial, fun hfits => ?_⟩
  change wp (updateHash cmd.data >>= fun _ => readRegisterData s.registered.tx.state
    (s.registered.tx.dataLength - cmd.data.length) s.registered.cborContext cmd.data >>= _) _ _ _
  rw [wp_bind, wp_updateHash, wp_bind]
  cases h with
  | unopened hacc hs =>
    rw [hs]
    trivial
  | arriving h hacc =>
    rcases h.state with ⟨hs, rfl⟩ | ⟨hs, hbuf⟩
    · rw [hs]
      refine wp_readCborInitial hc (fun _ => trivial) fun _ hle => ?_
      refine DataArriving.read hc h hacc (not_lt.mp hfits) rfl ?_ hmore hdone hfree
      rw [← h.left]
    · rw [hs]
      unfold readRegisterData
      rw [wp_bind, wp_throwIf]
      refine ⟨fun _ => trivial, fun _ => ?_⟩
      refine wp_readCborContent hc (fun _ => trivial) fun hle _ => ?_
      refine DataArriving.read hc h hacc (not_lt.mp hfits) ?_ ?_ hmore hdone hfree
      · rw [hbuf]
      · rw [← h.left]

/-! ## The flow -/

theorem DataArriving.still {got : Bytes} (h : DataArriving first got s)
    (hg : t.global = s.global) (htx : t.txState = s.txState)
    (hsender : t.accountSender = s.accountSender) : DataArriving first got t := by
  have hctx : t.registered = s.registered := by rw [World.registered, hg, World.registered]
  refine ⟨?_, hctx ▸ h.state, h.length, hctx ▸ h.left, hctx ▸ h.declared, ?_⟩
  · rw [hsender]
    exact h.header
  · rw [htx]
    exact h.hashed

theorem DataStage.still (h : DataStage s) (hst : Still s t)
    (hacc : Concordium.accepted t.log = Concordium.accepted s.log) : DataStage t := by
  have hg : t.global = s.global := by rw [hst]
  have hsender : t.accountSender = s.accountSender := by rw [hst]
  cases h with
  | unopened hempty hs =>
    refine .unopened (hacc.trans hempty) ?_
    rw [World.registered, hg]
    exact hs
  | arriving h hrows =>
    refine .arriving (h.still hg (by rw [hst]) hsender) ?_
    rw [hacc, hrows, hsender]

/-- The user goes on with the data, or ends the flow. -/
theorem DataUnderReview.answered {c : Callback} {ins : UInt8} (h : DataUnderReview s)
    (hc : c ∈ s.screen.actions) (hp : s.replyPending = true) :
    wp (runCallback c) (fun _ t => Flowing ins DataStage DataUnderReview t) (fun _ _ => True)
      (s.activated c) := by
  cases h with
  | intro h hacc hscreen hactions =>
    rcases hactions c hc with rfl | rfl
    · change wp (ioSendResponse [] swoSuccess) _ _ _
      rw [wp_ioSendResponse]
      refine .of_between rfl (.arriving (h.still rfl rfl rfl) ?_)
      simp [World.activated, Event.accepts, Callback.isIdle, Callback.isRejection, hacc, hscreen]
    · change wp rejectStagedReview _ _ _
      unfold rejectStagedReview
      rw [wp_bind, wp_releaseInstruction, wp_sendUserRejection]
      exact .of_free rfl
  | @confirming r h hactions =>
    rw [hactions, List.mem_singleton] at hc
    subst hc
    change wp registerDataOnDataConfirm _ _ _
    unfold registerDataOnDataConfirm
    have hzero : ¬ 0 < ((s.activated .registerDataOnDataConfirm).global.view
        (WithDataBlob SignRegisterData)).tx.dataLength := Nat.not_lt.mpr h.left.le
    rw [wp_bind, wp_getCtx, if_neg hzero]
    unfold uiSignFlowSharedDisplay
    rw [wp_showScreen]
    refine .of_review hp (.signing (r := r) ⟨h.hashed, h.left, ?_⟩ ?_ rfl)
    · simp [World.activated, Event.accepts, Callback.isIdle, Callback.isRejection,
        World.screenOf, h.seen]
    · simp [World.activated, Event.accepts, World.screenOf]
  | signing h hscreen hactions =>
    rw [hactions] at hc
    exact wp_mono (fun _ t ht => .of_free ht) (fun _ _ hE => hE) (wp_signFlowShared hc)

/-- The context when the first packet is dispatched. -/
def World.registerStarted (s : World) : World :=
  { s with
    global := Member.inject ({ tx := { state := .initial } } : WithDataBlob SignRegisterData) }

theorem dispatch_registerData {isInitialCall : Bool} (hins : cmd.ins = insRegisterData) :
    dispatchInstruction cmd isInitialCall =
      withData cmd (handleSignRegisterData cmd isInitialCall) := by
  unfold dispatchInstruction
  rw [hins]
  rfl

/-- The first packet of the flow. -/
theorem wp_handleSignRegisterData_first {ins : UInt8} (hz : s.global = .zeroed)
    (hp : s.replyPending = true) (hacc : Concordium.accepted s.log = []) :
    wp (handleSignRegisterData cmd true)
      (fun _ t => Flowing ins DataStage DataUnderReview t) (fun _ _ => True) s := by
  have hstarted : wp (handleSignRegisterData cmd true)
      (fun _ t => Flowing ins DataStage DataUnderReview t) (fun _ _ => True) s =
      wp (do
        let ctx ← getCtx (WithDataBlob SignRegisterData)
        if cmd.p1 = SignRegisterData.p1Initial ∧ ctx.tx.state = .initial then
          registerDataInitial cmd
        else if cmd.p1 = SignRegisterData.p1Data then registerDataData cmd
        else throw (.statusWord errorInvalidState))
      (fun _ t => Flowing ins DataStage DataUnderReview t) (fun _ _ => True)
      s.registerStarted := by
    unfold handleSignRegisterData
    rw [if_pos rfl, wp_bind, wp_modifyCtx, hz, InstructionContext.view_zeroed]
    rfl
  have hctx : s.registerStarted.global.view (WithDataBlob SignRegisterData) =
      { tx := { state := .initial } } := registered_of (w := s.registerStarted) rfl
  rw [hstarted, wp_bind, wp_getCtx, hctx]
  refine wp_if (fun _ => ?_) fun _ => wp_if (fun _ => ?_) fun _ => trivial
  · exact wp_registerDataInitial hacc fun t htp ht => .of_review (htp.trans hp) ht
  · -- Data in front of the first packet: no length has been declared.
    unfold registerDataData
    rw [wp_bind, wp_getCtx, hctx, wp_bind, wp_throwIf]
    refine ⟨fun _ => trivial, fun _ => ?_⟩
    rw [wp_bind, wp_updateHash]
    exact trivial

theorem registerDataRules (hc : DecodesItems Platform.cbor) :
    FlowRules insRegisterData (fun _ => DataStage) (fun _ => DataUnderReview) where
  still _ s t hst _ hacc hI := hI.still hst hacc
  first cmd s hins hl hp hz _ hacc _ := by
    rw [dispatch_registerData hins]
    refine wp_withData (fun _ => .of_between rfl (.unopened ?_ ?_)) fun _ =>
      wp_handleSignRegisterData_first hz hp hacc
    · simp [World.answered, Event.accepts, hacc]
    · change (s.global.view (WithDataBlob SignRegisterData)).tx.state = _
      rw [hz, InstructionContext.view_zeroed]
      rfl
  next _ cmd s hins hl hp hI := by
    rw [dispatch_registerData hins]
    refine wp_withData (fun _ => .of_between rfl (hI.still rfl
      (by simp [World.answered, Event.accepts]))) fun _ => ?_
    unfold handleSignRegisterData
    rw [if_neg Bool.false_ne_true]
    change wp (getCtx (WithDataBlob SignRegisterData) >>= _) _ _ _
    rw [wp_bind, wp_getCtx]
    refine wp_if (fun hif => ?_) fun _ => wp_if (fun _ => ?_) fun _ => trivial
    · rcases hI with ⟨-, hs⟩ | ⟨h, -⟩
      · cases hs.symm.trans hif.2
      · rcases h.state with ⟨hs, -⟩ | ⟨hs, -⟩ <;> cases hs.symm.trans hif.2
    · exact wp_registerDataData hc hI (fun t htp ht => .of_between htp ht)
        (fun t htp ht => .of_review (htp.trans hp) ht) fun t ht => .of_free ht
  answer _ c s hc hl hp hr := hr.answered hc hp

/-! ## Reviews that look alike -/

/-- What is signed behind a review of a transfer or of data. -/
inductive PaymentReview where
  | transfer {memo : Bool} (r : TransferReview memo)
  | data (r : DataReview)

namespace PaymentReview

/-- The bytes that are signed. -/
def payload : PaymentReview → Bytes
  | .transfer r => r.payload
  | .data r => r.payload

/-- The rows that are shown. -/
def rows : PaymentReview → List Row
  | .transfer r => r.rows
  | .data r => r.rows

/-- The first row tells a transfer from data. -/
theorem transfer_ne_data {memo : Bool} {r : TransferReview memo} {d : DataReview}
    (h : withoutFees r.rows = withoutFees d.rows) : False := by
  rw [r.withoutFees_rows, d.withoutFees_rows] at h
  unfold TransferReview.review DataReview.rows dataIntroRows accountReview at h
  cases hb : (Platform.backend : Backend) <;> rw [hb] at h
  · exact absurd (List.head_eq_of_cons_eq h) (by decide)
  · exact absurd (List.head_eq_of_cons_eq h) (by decide)

/-- The rows of a memo tell the two transfers apart. -/
theorem memo_eq {memo memo' : Bool} {r : TransferReview memo} {r' : TransferReview memo'}
    (h : withoutFees r.rows = withoutFees r'.rows) : memo = memo' := by
  rw [r.withoutFees_rows, r'.withoutFees_rows] at h
  obtain ⟨-, hfields⟩ := accountReview_injective h
  simp only [TransferReview.fields, List.cons.injEq] at hfields
  have hmemo := congrArg List.length hfields.2.2
  cases memo <;> cases memo' <;> first | rfl | cases hmemo

/-- Reviews whose rows agree are of the same content. -/
theorem content_unique (hx : ExactTexts) {r r' : PaymentReview}
    (h : withoutFees r.rows = withoutFees r'.rows) :
    signedContent r.payload = signedContent r'.payload := by
  cases r with
  | @transfer memo r =>
    cases r' with
    | @transfer memo' r' =>
      obtain rfl : memo = memo' := memo_eq h
      exact TransferReview.content_unique hx h
    | data r' => exact (transfer_ne_data h).elim
  | data r =>
    cases r' with
    | transfer r' => exact (transfer_ne_data h.symm).elim
    | data r' =>
      refine DataReview.content_unique hx ?_
      rw [← r.withoutFees_rows, ← r'.withoutFees_rows]
      exact h

end PaymentReview

/-- The transfers, with and without a memo, and data registration. -/
def paymentInstructions : List UInt8 := [insSignTransfer, insSignTransferWithMemo, insRegisterData]

/-- A run of the app in which reviews are answered once leads to a review that
    can be signed. -/
structure SignableRun (ins : UInt8) (inputs : List Input) (w : World) : Prop where
  gate : Along Concordium.step Answers World.start inputs
  run : runInputs World.start inputs = some w
  latch : w.latch = some ins
  offers : OffersSigning w

/-- What can be signed has been shown, the last part of it on screen. -/
theorem SignableRun.reviewed {ins : UInt8} {inputs : List Input} (hc : DecodesItems Platform.cbor)
    (hins : ins ∈ paymentInstructions) (h : SignableRun ins inputs w) :
    ∃ r : PaymentReview, w.txState.hash = r.payload ∧
      Concordium.accepted w.log ++ w.screen.rows = r.rows := by
  have transfer (memo : Bool) (hi : ins = transferIns memo) : ∃ r : PaymentReview,
      w.txState.hash = r.payload ∧ Concordium.accepted w.log ++ w.screen.rows = r.rows := by
    have hr := ((transferRules hc memo).run h.gate h.run).review (hi ▸ h.latch) h.offers.1
    obtain ⟨r, hhash, hrows⟩ := hr.review
    refine ⟨.transfer r, hhash, ?_⟩
    rw [hr.accepted, List.nil_append]
    exact hrows
  simp only [paymentInstructions, List.mem_cons, List.not_mem_nil, or_false] at hins
  rcases hins with rfl | rfl | rfl
  · exact transfer false rfl
  · exact transfer true rfl
  · have hr := ((registerDataRules hc).run h.gate h.run).review h.latch h.offers.1
    have hsign := h.offers.2
    cases hr with
    | intro _ _ _ hactions =>
      rcases hactions _ hsign with hno | hno <;> cases hno
    | confirming _ hactions =>
      rw [hactions] at hsign
      cases List.mem_singleton.mp hsign
    | @signing r hcomplete hscreen _ =>
      refine ⟨.data r, hcomplete.hashed, ?_⟩
      rw [hscreen]
      exact hcomplete.seen

/-- Two runs that have shown the same rows, the fees apart, and can be signed
    sign the same content: the same kind of transaction, of the same sender and
    maximal energy, with the same recipient, amount, memo or data. -/
theorem payment_reviews_determine (hx : ExactTexts) (hc : DecodesItems Platform.cbor)
    {ins ins' : UInt8} {inputs inputs' : List Input} {w' : World}
    (hins : ins ∈ paymentInstructions) (hins' : ins' ∈ paymentInstructions)
    (h : SignableRun ins inputs w) (h' : SignableRun ins' inputs' w')
    (hrows : withoutFees (Concordium.accepted w.log ++ w.screen.rows) =
      withoutFees (Concordium.accepted w'.log ++ w'.screen.rows)) :
    signedContent w.txState.hash = signedContent w'.txState.hash := by
  obtain ⟨r, hhash, hseen⟩ := h.reviewed hc hins
  obtain ⟨r', hhash', hseen'⟩ := h'.reviewed hc hins'
  rw [hhash, hhash']
  refine PaymentReview.content_unique hx ?_
  rw [← hseen, ← hseen', hrows]

end Data

/-- A transfer with a memo, sent with the given nonce and the memo cut into the
    given packets. -/
def memoTransferInputs (nonce : ℕ) (memo : List (List UInt8)) : List Input :=
  .apdu {
      ins := insSignTransferWithMemo
      p1 := SignTransferContext.p1InitialWithMemo
      p2 := 0
      data := 6 :: [44, 919, 0, 0, 0, 0].flatMap (toBe 4) ++
        (List.replicate 32 7 ++ toBe 8 nonce ++ toBe 8 500 ++ toBe 4 4 ++ toBe 8 9) ++
        [kindTransferWithMemo] ++ List.replicate 32 5 ++ [0, 4]
      lc_le := by simp } ::
    memo.map (fun chunk => .apdu (BlobFlow.packet .transferWithMemo chunk)) ++
    [.apdu ⟨insSignTransferWithMemo, SignTransferContext.p1Amount, 0, toBe 8 1000, by simp⟩]

/-- Two transfers that differ in their nonce and in how their memo was sent. -/
theorem nonce_apart_same_payment :
    letI : Platform := cborDevice .nbgl
    ∃ w w', runInputs World.start (memoTransferInputs 1 [[0x63, 65, 66, 67]]) = some w ∧
      runInputs World.start (memoTransferInputs 2 [[0x63], [65, 66, 67]]) = some w' ∧
      signedContent w.txState.hash = signedContent w'.txState.hash := by
  let : Platform := cborDevice .nbgl
  have hrun : (runInputs World.start (memoTransferInputs 1 [[0x63, 65, 66, 67]])).any (fun w =>
      (runInputs World.start (memoTransferInputs 2 [[0x63], [65, 66, 67]])).any fun w' =>
        decide (w.latch = some insSignTransferWithMemo ∧ w.replyPending = true ∧
          .buildAndSignTransactionHash ∈ w.screen.actions ∧
          w'.latch = some insSignTransferWithMemo ∧ w'.replyPending = true ∧
          .buildAndSignTransactionHash ∈ w'.screen.actions ∧
          withoutFees (accepted w.log ++ w.screen.rows) =
            withoutFees (accepted w'.log ++ w'.screen.rows))) = true := by
    decide +kernel
  obtain ⟨w, hw, hrun⟩ := (Option.any_eq_true _ _).mp hrun
  obtain ⟨w', hw', hrun⟩ := (Option.any_eq_true _ _).mp hrun
  obtain ⟨hl, hp, ho, hl', hp', ho', hrows⟩ := of_decide_eq_true hrun
  have hgate : Along Concordium.step Answers World.start
      (memoTransferInputs 1 [[0x63, 65, 66, 67]]) := by decide +kernel
  have hgate' : Along Concordium.step Answers World.start
      (memoTransferInputs 2 [[0x63], [65, 66, 67]]) := by decide +kernel
  exact ⟨w, w', hw, hw', payment_reviews_determine (exactTexts_cborDevice .nbgl)
    decodesItems_itemCursor (by decide) (by decide) ⟨hgate, hw, hl, hp, ho⟩
    ⟨hgate', hw', hl', hp', ho'⟩ hrows⟩

end Concordium
