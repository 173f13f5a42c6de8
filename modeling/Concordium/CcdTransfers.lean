/-
  What the reviews of plain transfers show.

  A transfer is under review once its header, its recipient and its amount have
  been hashed; with a memo, the memo has been hashed in between and is the one
  item that its rows show.
-/
import Concordium.Chunking
import Concordium.ToAddress

namespace Concordium

open Buffer Cbor Union Wp Runs

set_option synthInstance.maxSize 1000000
set_option synthInstance.maxHeartbeats 100000

/-! ## Blobs behind their length -/

/-- The bytes are the item that the context shows, behind its length. -/
def BlobShown (cbor : CborContext) (bs : Bytes) : Prop :=
  ∃ i len, Displayable i ∧ Shows i cbor ∧ len.length = 2 ∧ beNat len = i.encode.length ∧
    bs = len ++ i.encode

theorem BlobShown.unique {cbor cbor' : CborContext} {bs bs' : Bytes} (h : BlobShown cbor bs)
    (h' : BlobShown cbor' bs') (hlabel : cbor.typeLabel.text = cbor'.typeLabel.text)
    (hdisplay : cbor.display.text = cbor'.display.text) : bs = bs' := by
  obtain ⟨i, len, -, hi, hlen, hn, rfl⟩ := h
  obtain ⟨j, len', -, hj, hlen', hn', rfl⟩ := h'
  obtain rfl : i = j := item_unique (hi.label.symm.trans (hlabel.trans hj.label))
    (hi.display.symm.trans (hdisplay.trans hj.display))
  rw [beNat_injective (hlen.trans hlen'.symm) (hn.trans hn'.symm)]

/-! ## Rows that are not fees -/

/-- The estimate of the fees is sent by the host and is not signed. -/
def feeItem : Bytes := ascii "Max fees (est.)"

/-- The rows without that of the fee estimate. -/
def withoutFees (rows : List Row) : List Row := rows.filter fun r => r.item != feeItem

@[simp] theorem withoutFees_append {rows rows' : List Row} :
    withoutFees (rows ++ rows') = withoutFees rows ++ withoutFees rows' :=
  List.filter_append ..

@[simp] theorem withoutFees_nil : withoutFees [] = [] := rfl

theorem withoutFees_cons {r : Row} {rows : List Row} (h : r.item ≠ feeItem) :
    withoutFees (r :: rows) = r :: withoutFees rows :=
  List.filter_cons_of_pos (bne_iff_ne.mpr h)

theorem withoutFees_row {item : String} {value : Bytes} {rows : List Row}
    (h : ascii item ≠ feeItem) :
    withoutFees (row item value :: rows) = row item value :: withoutFees rows :=
  withoutFees_cons h

theorem withoutFees_accountHeaderPairs {account : AccountSender} {item : String}
    (h : ascii item ≠ feeItem) :
    withoutFees (accountHeaderPairs account item) = accountHeaderPairs account item := by
  unfold accountHeaderPairs
  rw [withoutFees_row h, withoutFees_row (by decide), withoutFees_row (by decide),
    withoutFees_nil]

theorem withoutFees_feeRows (fee : Buf 30) (hasFeeDisplay : Bool) :
    withoutFees (feeRows fee hasFeeDisplay) = [] := by
  cases hasFeeDisplay with
  | false => rfl
  | true => exact List.filter_eq_nil_iff.mpr (by simp [feeRows, row, feeItem])

/-! ## The review -/

/-- The instruction of a transfer, by whether it has a memo. -/
def transferIns (memo : Bool) : UInt8 := if memo then insSignTransferWithMemo else insSignTransfer

/-- The transaction kind of a transfer, by whether it has a memo. -/
def transferKind (memo : Bool) : UInt8 := if memo then kindTransferWithMemo else kindTransfer

/-- A transfer as the review shows it: the fields, each with what its rows show. -/
structure TransferReview [Platform] (memo : Bool) where
  account : AccountSender
  ctx : WithDataBlob SignTransferContext
  header : Bytes
  recipient : Bytes
  blob : Bytes
  amount : Bytes
  header_shown : HeaderShown account header
  recipient_shown : AddressShown ctx.tx.displayStr.text recipient
  blob_shown : if memo then BlobShown ctx.cborContext blob else blob = []
  amount_length : amount.length = 8
  amount_shown : AmountShown ctx.tx.displayAmount.text (beNat amount)

section Review
variable [Platform] {memo : Bool}

namespace TransferReview

/-- What has been fed to the transaction hash. -/
def payload (r : TransferReview memo) : Bytes :=
  r.header ++ (transferKind memo :: (r.recipient ++ (r.blob ++ r.amount)))

/-- The rows of the transfer, but for the fees. -/
def fields (r : TransferReview memo) : List Row :=
  row "Amount" r.ctx.tx.displayAmount.text :: row "To" r.ctx.tx.displayStr.text ::
    memoRows r.ctx.cborContext memo

/-- The rows that a review of the given fields consists of. -/
def review (account : AccountSender) (fields : List Row) : List Row :=
  accountReview (line "Review transaction to send CCD" "")
    (line "Review transaction to" "send CCD") "From" "Sign transaction to send CCD" account fields

/-- What is on screen. -/
def rows (r : TransferReview memo) : List Row :=
  review r.account (r.fields ++ feeRows r.ctx.tx.feeDisplayStr r.ctx.tx.hasFeeDisplay)

theorem withoutFees_rows (r : TransferReview memo) :
    withoutFees r.rows = review r.account r.fields := by
  have hfields : withoutFees r.fields = r.fields := by
    unfold fields memoRows
    rw [withoutFees_row (by decide), withoutFees_row (by decide)]
    cases memo with
    | false => rfl
    | true =>
      simp only [if_true]
      rw [withoutFees_row (by decide), withoutFees_row (by decide), withoutFees_nil]
  unfold rows review accountReview
  cases hb : (Platform.backend : Backend) with
  | nbgl =>
    simp only [List.cons_append]
    rw [withoutFees_cons (by decide), withoutFees_append, withoutFees_append, withoutFees_append,
      withoutFees_feeRows, withoutFees_accountHeaderPairs (by decide), hfields,
      withoutFees_cons (by decide), withoutFees_nil, List.append_nil]
  | bagl =>
    simp only [List.cons_append]
    rw [withoutFees_cons (by decide), withoutFees_append, withoutFees_append,
      withoutFees_feeRows, withoutFees_accountHeaderPairs (by decide), hfields, List.append_nil]

/-- Transfers whose rows agree, fees apart, differ in nonce, payload size and
    expiry only. -/
theorem content_unique (hx : ExactTexts) {r r' : TransferReview memo}
    (h : withoutFees r.rows = withoutFees r'.rows) :
    signedContent r.payload = signedContent r'.payload := by
  rw [withoutFees_rows, withoutFees_rows] at h
  obtain ⟨haccount, hfields⟩ := accountReview_injective h
  simp only [fields, row, List.cons.injEq, Row.mk.injEq, true_and] at hfields
  obtain ⟨hamount, hto, hmemo⟩ := hfields
  have hheader := r.header_shown.unique_of_pairs hx r'.header_shown haccount
  have hrecipient : r.recipient = r'.recipient :=
    AddressShown.unique hx r.recipient_shown (hto ▸ r'.recipient_shown)
  have hvalue : r.amount = r'.amount := by
    refine beNat_injective (r.amount_length.trans r'.amount_length.symm) ?_
    have hlt (q : TransferReview memo) : beNat q.amount < 2 ^ 64 := by
      have := beNat_lt q.amount
      rwa [q.amount_length] at this
    exact AmountShown.unique hx (hlt r) (hlt r') r.amount_shown (hamount ▸ r'.amount_shown)
  have hblob : r.blob = r'.blob := by
    have hr := r.blob_shown
    have hr' := r'.blob_shown
    cases memo with
    | false => exact hr.trans hr'.symm
    | true =>
      simp only [memoRows, if_true, row, List.cons.injEq, Row.mk.injEq, true_and, and_true]
        at hmemo
      exact BlobShown.unique hr hr' hmemo.1 hmemo.2
  rw [payload, payload, signedContent_append r.header_shown.length,
    signedContent_append r'.header_shown.length, hheader, hrecipient, hblob, hvalue]

end TransferReview

/-- A transfer is under review. -/
structure TransferReviewing (memo : Bool) (w : World) : Prop where
  review : ∃ r : TransferReview memo, w.txState.hash = r.payload ∧ w.screen.rows = r.rows
  actions : w.screen.actions = signFlowShared
  accepted : Concordium.accepted w.log = []

/-- The transfer that a flow reads. -/
def World.transfer (w : World) : WithDataBlob SignTransferContext :=
  w.global.view (WithDataBlob SignTransferContext)

theorem transfer_of {w : World} {ctx : WithDataBlob SignTransferContext}
    (h : w.global = Member.inject ctx) : w.transfer = ctx := by
  rw [World.transfer, h, InstructionContext.view_inject]

variable {cmd first : Command} {s t w : World} {Q : Unit → World → Prop}

/-- The review is drawn of what has been hashed. -/
theorem wp_startTransferDisplay {E : Exception → World → Prop} (r : TransferReview memo)
    (haccount : r.account = s.accountSender) (hctx : r.ctx = s.transfer)
    (hhash : s.txState.hash = r.payload) (hacc : Concordium.accepted s.log = [])
    (hQ : ∀ t, t.replyPending = s.replyPending → TransferReviewing memo t → Q () t) :
    wp (startTransferDisplay memo) Q E s := by
  have hrows : r.rows = TransferReview.review s.accountSender
      (row "Amount" s.transfer.tx.displayAmount.text ::
        row "To" s.transfer.tx.displayStr.text :: memoRows s.transfer.cborContext memo ++
          feeRows s.transfer.tx.feeDisplayStr s.transfer.tx.hasFeeDisplay) := by
    rw [TransferReview.rows, TransferReview.fields, haccount, hctx]
  unfold startTransferDisplay
  simp only [wp_bind, wp_getCtx, wp_get]
  unfold TransferReview.review accountReview at hrows
  cases hb : (Platform.backend : Backend) with
  | nbgl =>
    rw [hb] at hrows
    simp only [nbglSignReview, nbglReview, wp_showScreen]
    refine hQ _ rfl ⟨⟨r, hhash, ?_⟩, rfl, ?_⟩
    · rw [hrows]
      rfl
    · simp [Event.accepts, hacc]
  | bagl =>
    rw [hb] at hrows
    simp only [wp_showScreen]
    refine hQ _ rfl ⟨⟨r, hhash, ?_⟩, rfl, ?_⟩
    · rw [hrows]
      rfl
    · simp [Event.accepts, hacc]

/-! ## A plain transfer -/

/-- The packet of a transfer, whichever packets were refused before it. -/
theorem wp_handleSignTransfer (hacc : Concordium.accepted s.log = [])
    (hQ : ∀ t, t.replyPending = s.replyPending → TransferReviewing false t → Q () t) :
    wp (handleSignTransfer cmd) Q (fun _ _ => True) s := by
  unfold handleSignTransfer
  rw [wp_bind, wp_throwIf]
  refine ⟨fun _ => trivial, fun _ => ?_⟩
  rw [wp_bind, wp_getCtx, wp_bind]
  refine wp_handleHeaderAndToAddress fun displayStr t hlength ht => ?_
  dsimp only
  rw [wp_bind, wp_advance]
  refine ⟨fun _ => ?_, fun _ => trivial⟩
  rw [wp_bind, wp_throwIf]
  refine ⟨fun _ => trivial, fun _ => ?_⟩
  rw [wp_bind, wp_u8be]
  refine ⟨fun hlong => ?_, fun _ => trivial⟩
  have hamount := List.length_take_of_le
    (l := (cmd.data.drop (1 + (cmd.data.getD 0 0).toNat * 4 + 61 + 32)).drop 0) (i := 8)
    (by rw [List.length_drop]; omega)
  rw [← bind_assoc, wp_bind]
  refine wp_amountToCcdDisplay le_rfl (fun _ => trivial) fun displayAmount htext => ?_
  rw [wp_bind, wp_slice]
  refine ⟨fun _ => ?_, fun _ => trivial⟩
  rw [wp_bind, wp_updateHash, wp_bind]
  refine wp_reads _ (fun fee _ => ?_) fun _ _ => trivial
  rw [wp_bind, wp_setCtx]
  refine wp_startTransferDisplay ⟨t.accountSender, _, transactionHeader cmd,
    recipientBytes cmd, [], _, ht.header, ?_, rfl, hamount, .of_text ?_⟩ rfl (transfer_of rfl).symm
    ?_ ?_ fun v hv hreview => hQ v (hv.trans ht.reply) hreview
  · exact ht.recipient
  · exact htext
  · simp only [ht.hash, TransferReview.payload, List.append_assoc]
    rfl
  · simp [Event.accepts, ht.accepted, hacc]

/-! ## A transfer with a memo -/

omit [Platform] in
/-- The length of the memo, as it is hashed. -/
def memoLengthBytes (first : Command) : Bytes := ((transactionBody first).drop 93).take 2

omit [Platform] in
/-- What is hashed of a transfer in front of its amount. -/
def transferHead (first : Command) (blob : Bytes) : Bytes :=
  transactionHeader first ++ [kindTransferWithMemo] ++ recipientBytes first ++ blob

/-- The header and the recipient are ready for the screen. -/
structure TransferAddressed (first : Command) (w : World) : Prop where
  header : HeaderShown w.accountSender (transactionHeader first)
  recipient : AddressShown w.transfer.tx.displayStr.text (recipientBytes first)
  accepted : Concordium.accepted w.log = []

/-- The memo is arriving: `got` has been hashed of it. -/
structure TransferMemoArriving (first : Command) (got : Bytes) (w : World) : Prop where
  addressed : TransferAddressed first w
  state : w.transfer.tx.state = .memoInitial ∧ got = [] ∨
    w.transfer.tx.state = .memo ∧ w.transfer.cborContext.cborBuf = got
  length : (memoLengthBytes first).length = 2
  left : w.transfer.cborContext.cborLength + got.length = beNat (memoLengthBytes first)
  hashed : w.txState.hash = transferHead first (memoLengthBytes first ++ got)

/-- The memo has been read, and the amount is awaited. -/
structure TransferMemoRead (first : Command) (blob : Bytes) (w : World) : Prop where
  addressed : TransferAddressed first w
  state : w.transfer.tx.state = .amount
  shown : BlobShown w.transfer.cborContext blob
  hashed : w.txState.hash = transferHead first blob

/-- Where a transfer stands between packets. -/
inductive TransferStage (memo : Bool) (w : World) : Prop where
  | unopened (hacc : Concordium.accepted w.log = [])
    (hs : memo = true → w.transfer.tx.state = .unset)
  | arriving {first : Command} {got : Bytes} (hm : memo = true)
    (h : TransferMemoArriving first got w)
  | read {first : Command} {blob : Bytes} (hm : memo = true) (h : TransferMemoRead first blob w)

theorem TransferAddressed.of_ctx {ctx : WithDataBlob SignTransferContext}
    (h : TransferAddressed first s) (hw : w.global = Member.inject ctx)
    (hsender : w.accountSender = s.accountSender)
    (hlog : Concordium.accepted w.log = Concordium.accepted s.log)
    (htext : ctx.tx.displayStr = s.transfer.tx.displayStr) : TransferAddressed first w := by
  refine ⟨?_, ?_, hlog.trans h.accepted⟩
  · rw [hsender]
    exact h.header
  · rw [transfer_of hw, htext]
    exact h.recipient

/-- The first packet. -/
theorem wp_transferMemoInitial (hacc : Concordium.accepted s.log = [])
    (hQ : ∀ t, t.replyPending = false → TransferMemoArriving cmd [] t → Q () t) :
    wp (transferMemoInitial cmd) Q (fun _ _ => True) s := by
  unfold transferMemoInitial
  rw [wp_bind, wp_throwIf]
  refine ⟨fun _ => trivial, fun _ => ?_⟩
  rw [wp_bind, wp_getCtx, wp_bind]
  refine wp_handleHeaderAndToAddress fun displayStr t hlength ht => ?_
  dsimp only
  rw [wp_bind, wp_advance]
  refine ⟨fun _ => ?_, fun _ => trivial⟩
  have hmemo : ((cmd.data.drop (1 + (cmd.data.getD 0 0).toNat * 4 + 61 + 32)).drop 0).take 2 =
      memoLengthBytes cmd := by
    rw [memoLengthBytes, transactionBody, List.drop_zero, List.drop_drop]
  rw [wp_bind, wp_throwIf]
  refine ⟨fun _ => trivial, fun _ => ?_⟩
  rw [wp_bind, wp_u2be]
  refine ⟨fun hlong => ?_, fun _ => trivial⟩
  have hlen : (memoLengthBytes cmd).length = 2 := by
    rw [← hmemo, List.length_take, List.drop_zero]
    omega
  rw [hmemo, wp_bind, wp_throwIf]
  refine ⟨fun _ => trivial, fun _ => ?_⟩
  rw [wp_bind, wp_slice]
  refine ⟨fun _ => ?_, fun _ => trivial⟩
  rw [hmemo, wp_bind, wp_updateHash, wp_bind]
  refine wp_reads _ (fun fee _ => ?_) fun _ _ => trivial
  rw [wp_bind, wp_setCtx]
  change wp (ioSendResponse [] swoSuccess) _ _ _
  rw [wp_ioSendResponse]
  refine hQ _ rfl ⟨⟨ht.header, ?_, ?_⟩, .inl ⟨?_, rfl⟩, hlen, ?_, ?_⟩
  · rw [transfer_of rfl]
    exact ht.recipient
  · simp [Event.accepts, ht.accepted, hacc]
  · rw [transfer_of rfl]
  · rw [transfer_of rfl]
    rfl
  · simp only [ht.hash, transferHead, List.append_nil]

/-- A memo packet, whichever reader takes it. -/
theorem wp_transferMemoArriving (hc : DecodesItems Platform.cbor)
    {readCbor : CborContext → Bytes → App (UInt16 × CborContext)} {got : Bytes}
    (h : TransferMemoArriving first got s)
    (hread : ∀ u (Q : UInt16 × CborContext → World → Prop),
      (∀ cbor, cbor.cborBuf = got ++ cmd.data →
        cbor.cborLength + cmd.data.length = s.transfer.cborContext.cborLength →
        Q (cborRead cbor) u) →
      wp (readCbor s.transfer.cborContext cmd.data) Q (fun _ _ => True) u)
    (hmore : ∀ t, t.replyPending = false → TransferMemoArriving first (got ++ cmd.data) t → Q () t)
    (hdone : ∀ t, t.replyPending = false →
      TransferMemoRead first (memoLengthBytes first ++ (got ++ cmd.data)) t → Q () t)
    (hfree : ∀ t, t.latch = none → Q () t) :
    wp (transferMemoPacket cmd readCbor) Q (fun _ _ => True) s := by
  have hhash : s.txState.hash ++ cmd.data =
      transferHead first (memoLengthBytes first ++ (got ++ cmd.data)) := by
    simp only [h.hashed, transferHead, List.append_assoc]
  have hleft := h.left
  unfold transferMemoPacket
  rw [wp_bind, wp_throwIf]
  refine ⟨fun _ => trivial, fun _ => ?_⟩
  rw [wp_bind, wp_updateHash, wp_bind, wp_getCtx, wp_bind]
  refine hread _ _ fun cbor hbuf hlength => ?_
  have hcounter : (cborRead cbor).2.cborLength = cbor.cborLength := cborRead_cborLength hc cbor
  by_cases hzero : cbor.cborLength = 0
  · have hparsed : BlobParsed cbor (cborRead cbor) := by
      rw [cborRead, if_pos hzero]
      exact blobParsed_parsedCbor hc cbor
    generalize cborRead cbor = out at hcounter hparsed
    obtain ⟨sw, out⟩ := out
    dsimp only at hcounter hparsed ⊢
    rw [wp_bind, wp_setCtx]
    refine wp_if (fun _ => ?_) fun hsw => wp_if (fun _ => ?_) fun hno => absurd
      (hcounter.trans hzero) hno
    · rw [wp_sendRejection]
      exact hfree _ rfl
    · obtain ⟨-, -, ⟨-, i, hi, hencode, hshows⟩ | ⟨hno, -⟩⟩ := hparsed
      · unfold finishTransferMemo
        rw [wp_bind, wp_modifyCtx]
        change wp (ioSendResponse [] swoSuccess) _ _ _
        rw [wp_ioSendResponse]
        refine hdone _ rfl ⟨h.addressed.of_ctx rfl rfl (by simp [Event.accepts]) ?_, ?_, ?_, hhash⟩
        · rw [InstructionContext.view_inject]
          rfl
        · rw [transfer_of rfl]
        · rw [transfer_of rfl, InstructionContext.view_inject]
          refine ⟨i, _, hi, hshows, h.length, ?_, ?_⟩
          · rw [← hencode, hbuf, List.length_append]
            omega
          · rw [← hbuf, hencode]
      · exact absurd (not_not.mp hsw) hno
  · rw [cborRead_incomplete hzero]
    dsimp only
    rw [wp_bind, wp_setCtx]
    refine wp_if (fun hsw => absurd rfl hsw) fun _ =>
      wp_if (fun hno => absurd hno hzero) fun _ => ?_
    rw [wp_bind, wp_setCtx]
    change wp (ioSendResponse [] swoSuccess) _ _ _
    rw [wp_ioSendResponse]
    refine hmore _ rfl ⟨h.addressed.of_ctx rfl rfl (by simp [Event.accepts]) rfl,
      .inr ⟨?_, ?_⟩, h.length, ?_, hhash⟩
    · rw [transfer_of rfl]
    · rw [transfer_of rfl, hbuf]
    · rw [transfer_of rfl, List.length_append]
      dsimp only
      omega

/-- The amount, and with it the review. -/
theorem wp_transferMemoAmount {blob : Bytes} (h : TransferMemoRead first blob s)
    (hQ : ∀ t, t.replyPending = s.replyPending → TransferReviewing true t → Q () t) :
    wp (transferMemoAmount cmd) Q (fun _ _ => True) s := by
  unfold transferMemoAmount
  rw [wp_bind, wp_throwIf]
  refine ⟨fun _ => trivial, fun _ => ?_⟩
  rw [wp_bind, wp_throwIf]
  refine ⟨fun _ => trivial, fun hlong => ?_⟩
  rw [wp_bind, wp_u8be]
  refine ⟨fun _ => ?_, fun _ => trivial⟩
  rw [wp_bind, wp_getCtx, ← bind_assoc, wp_bind]
  refine wp_amountToCcdDisplay le_rfl (fun _ => trivial) fun displayAmount htext => ?_
  rw [wp_bind, wp_slice]
  refine ⟨fun _ => ?_, fun _ => trivial⟩
  rw [wp_bind, wp_updateHash, wp_bind, wp_setCtx]
  have hamount := List.length_take_of_le (l := cmd.data.drop 0) (i := 8)
    (by rw [List.drop_zero]; omega)
  refine wp_startTransferDisplay ⟨s.accountSender, _, transactionHeader first,
    recipientBytes first, blob, _, h.addressed.header, ?_, ?_, hamount, .of_text ?_⟩ rfl
    (transfer_of rfl).symm ?_ ?_ fun v hv hreview => hQ v hv hreview
  · exact h.addressed.recipient
  · exact h.shown
  · exact htext
  · simp only [h.hashed, transferHead, TransferReview.payload, List.append_assoc]
    rfl
  · simp [Event.accepts, h.addressed.accepted]

/-! ## The flow -/

theorem TransferStage.still (h : TransferStage memo s) (hst : Still s t)
    (hacc : Concordium.accepted t.log = Concordium.accepted s.log) : TransferStage memo t := by
  have htx : t.transfer = s.transfer := by rw [hst]; rfl
  have hhash : t.txState.hash = s.txState.hash := by rw [hst]
  have addressed {first : Command} (h : TransferAddressed first s) : TransferAddressed first t := by
    refine ⟨?_, ?_, hacc.trans h.accepted⟩
    · rw [show t.accountSender = s.accountSender by rw [hst]]
      exact h.header
    · rw [htx]
      exact h.recipient
  rcases h with ⟨hempty, hs⟩ | ⟨hm, h⟩ | ⟨hm, h⟩
  · exact .unopened (hacc.trans hempty) (htx ▸ hs)
  · exact .arriving hm ⟨addressed h.addressed, htx ▸ h.state, h.length, htx ▸ h.left,
      hhash.trans h.hashed⟩
  · exact .read hm ⟨addressed h.addressed, htx ▸ h.state, htx ▸ h.shown, hhash.trans h.hashed⟩

/-- The handler of the instruction. -/
def transferHandler (memo : Bool) (cmd : Command) (isInitialCall : Bool) : App Unit :=
  if memo then handleSignTransferWithMemo cmd isInitialCall else handleSignTransfer cmd

theorem dispatch_transfer {isInitialCall : Bool} (hins : cmd.ins = transferIns memo) :
    dispatchInstruction cmd isInitialCall =
      withData cmd (transferHandler memo cmd isInitialCall) := by
  unfold dispatchInstruction
  rw [hins]
  cases memo <;> rfl

/-- A packet of a transfer with a memo, by the state in which it arrives. -/
theorem wp_handleSignTransferWithMemo (hc : DecodesItems Platform.cbor)
    (h : TransferStage true s ∨ Concordium.accepted s.log = [] ∧ s.transfer.tx.state = .initial)
    (hbetween : ∀ t, t.replyPending = false → TransferStage true t → Q () t)
    (hreview : ∀ t, t.replyPending = s.replyPending → TransferReviewing true t → Q () t)
    (hfree : ∀ t, t.latch = none → Q () t) :
    wp (handleSignTransferWithMemo cmd false) Q (fun _ _ => True) s := by
  have arriving (hstate : s.transfer.tx.state = .memoInitial ∨ s.transfer.tx.state = .memo) :
      ∃ first got, TransferMemoArriving first got s := by
    rcases h with (⟨-, hs⟩ | ⟨-, h⟩ | ⟨-, h⟩) | ⟨-, hs⟩
    · rcases hstate with hstate | hstate <;> cases (hs rfl).symm.trans hstate
    · exact ⟨_, _, h⟩
    · rcases hstate with hstate | hstate <;> cases h.state.symm.trans hstate
    · rcases hstate with hstate | hstate <;> cases hs.symm.trans hstate
  unfold handleSignTransferWithMemo
  rw [if_neg Bool.false_ne_true]
  change wp (getCtx (WithDataBlob SignTransferContext) >>= _) _ _ _
  rw [wp_bind, wp_getCtx]
  change wp (if cmd.p1 = SignTransferContext.p1InitialWithMemo ∧ s.transfer.tx.state = .initial
    then _ else _) _ _ _
  refine wp_if (fun hif => ?_) fun _ => wp_if (fun hif => ?_) fun _ => wp_if (fun hif => ?_)
    fun _ => wp_if (fun hif => ?_) fun _ => trivial
  · have hacc : Concordium.accepted s.log = [] := by
      rcases h with (⟨hacc, -⟩ | ⟨-, h⟩ | ⟨-, h⟩) | ⟨hacc, -⟩
      · exact hacc
      · exact h.addressed.accepted
      · exact h.addressed.accepted
      · exact hacc
    exact wp_transferMemoInitial hacc fun t htp ht => hbetween t htp (.arriving rfl ht)
  · obtain ⟨first, got, harr⟩ := arriving (.inl hif.2)
    obtain ⟨-, rfl⟩ := harr.state.resolve_right fun hno => by cases hif.2.symm.trans hno.1
    refine wp_transferMemoArriving hc harr (fun u Q' hQ' => ?_)
      (fun t htp ht => hbetween t htp (.arriving rfl ht))
      (fun t htp ht => hbetween t htp (.read rfl ht)) hfree
    refine wp_readCborInitial hc (fun _ => trivial) fun _ hle => hQ' _ rfl ?_
    dsimp only
    omega
  · obtain ⟨first, got, harr⟩ := arriving (.inr hif.2)
    obtain ⟨-, hbuf⟩ := harr.state.resolve_left fun hno => by cases hif.2.symm.trans hno.1
    refine wp_transferMemoArriving hc harr (fun u Q' hQ' => ?_)
      (fun t htp ht => hbetween t htp (.arriving rfl ht))
      (fun t htp ht => hbetween t htp (.read rfl ht)) hfree
    refine wp_readCborContent hc (fun _ => trivial) fun hle _ => hQ' _ ?_ ?_
    · rw [hbuf]
    · dsimp only
      omega
  · rcases h with (⟨-, hs⟩ | ⟨-, h⟩ | ⟨-, h⟩) | ⟨-, hs⟩
    · cases (hs rfl).symm.trans hif.2
    · rcases h.state with ⟨hs, -⟩ | ⟨hs, -⟩ <;> cases hs.symm.trans hif.2
    · exact wp_transferMemoAmount h hreview
    · cases hs.symm.trans hif.2

/-- The context when the first packet is dispatched. -/
def World.transferStarted (s : World) : World :=
  { s with
    global := Member.inject ({ tx := { state := .initial } } : WithDataBlob SignTransferContext) }

theorem wp_handleSignTransferWithMemo_first {E : Exception → World → Prop}
    (hz : s.global = .zeroed) :
    wp (handleSignTransferWithMemo cmd true) Q E s =
      wp (handleSignTransferWithMemo cmd false) Q E s.transferStarted := by
  unfold handleSignTransferWithMemo
  rw [if_pos rfl, if_neg Bool.false_ne_true, wp_bind, wp_modifyCtx, hz,
    InstructionContext.view_zeroed]
  rfl

/-- A packet of a transfer. -/
theorem TransferStage.flowing {isInitialCall : Bool} {ins : UInt8}
    (hc : DecodesItems Platform.cbor) (hp : s.replyPending = true)
    (h : isInitialCall = true ∧ s.global = .zeroed ∧ Concordium.accepted s.log = [] ∨
      isInitialCall = false ∧ TransferStage memo s) :
    wp (transferHandler memo cmd isInitialCall)
      (fun _ t => Flowing ins (fun w => TransferStage memo w) (fun w => TransferReviewing memo w) t)
      (fun _ _ => True) s := by
  cases memo with
  | false =>
    change wp (handleSignTransfer cmd) _ _ _
    have hacc : Concordium.accepted s.log = [] := by
      rcases h with ⟨-, -, hacc⟩ | ⟨-, ⟨hacc, -⟩ | ⟨hm, -⟩ | ⟨hm, -⟩⟩
      · exact hacc
      · exact hacc
      · cases hm
      · cases hm
    exact wp_handleSignTransfer hacc fun t htp ht => .of_review (htp.trans hp) ht
  | true =>
    change wp (handleSignTransferWithMemo cmd isInitialCall) _ _ _
    rcases h with ⟨rfl, hz, hacc⟩ | ⟨rfl, h⟩
    · rw [wp_handleSignTransferWithMemo_first hz]
      refine wp_handleSignTransferWithMemo hc (.inr ⟨hacc, ?_⟩)
        (fun t htp ht => .of_between htp ht) (fun t htp ht => .of_review (htp.trans hp) ht)
        fun t ht => .of_free ht
      rw [transfer_of (w := s.transferStarted) rfl]
    · exact wp_handleSignTransferWithMemo hc (.inl h) (fun t htp ht => .of_between htp ht)
        (fun t htp ht => .of_review (htp.trans hp) ht) fun t ht => .of_free ht

theorem transferRules (hc : DecodesItems Platform.cbor) (memo : Bool) :
    FlowRules (transferIns memo) (fun _ w => TransferStage memo w)
      (fun _ w => TransferReviewing memo w) where
  still _ s t hst _ hacc hI := hI.still hst hacc
  first cmd s hins hl hp hz _ hacc _ := by
    rw [dispatch_transfer hins]
    refine wp_withData (fun _ => .of_between rfl (.unopened ?_ fun _ => ?_)) fun _ =>
      TransferStage.flowing hc hp (.inl ⟨rfl, hz, hacc⟩)
    · simp [World.answered, Event.accepts, hacc]
    · change (s.global.view (WithDataBlob SignTransferContext)).tx.state = _
      rw [hz, InstructionContext.view_zeroed]
      rfl
  next _ cmd s hins hl hp hI := by
    rw [dispatch_transfer hins]
    exact wp_withData (fun _ => .of_between rfl (hI.still rfl
      (by simp [World.answered, Event.accepts]))) fun _ =>
      TransferStage.flowing hc hp (.inr ⟨rfl, hI⟩)
  answer _ c s hc hl hp hr := by
    rw [hr.actions] at hc
    exact wp_mono (fun _ t ht => .of_free ht) (fun _ _ hE => hE) (wp_signFlowShared hc)

end Review

end Concordium
