/-
  Transfers with a schedule, packet by packet.

  The first packet declares how many releases follow; with a memo, the memo comes
  next.  Then the user confirms the transfer, and every pair of a release is
  hashed and reviewed in turn.  The last one is signed.
-/
import Concordium.Chunking
import Concordium.ScheduledPairs
import Concordium.ToAddress

namespace Concordium

open Buffer Cbor Union Wp Runs

set_option synthInstance.maxSize 1000000
set_option synthInstance.maxHeartbeats 100000

/-! ## What the packets declare -/

/-- How many releases the first packet declares. -/
def declaredReleases (first : Command) : ℕ := ((transactionBody first).getD 93 0).toNat

/-- The length of the memo that the first packet declares. -/
def declaredMemo (first : Command) : ℕ := beNat (((transactionBody first).drop 94).take 2)

/-- The instruction of a schedule, by whether it has a memo. -/
def scheduleIns (memo : Bool) : UInt8 :=
  if memo then insSignTransferWithScheduleAndMemo else insSignTransferWithSchedule

/-- Its transaction kind. -/
def scheduleKind (memo : Bool) : UInt8 :=
  if memo then kindTransferWithScheduleWithMemo else kindTransferWithSchedule

/-- What is hashed of the memo: its length, and the bytes that have arrived. -/
def memoBytes (first : Command) (memos : List Command) : Bytes :=
  ((transactionBody first).drop 94).take 2 ++ memos.flatMap Command.data

/-- What is hashed in front of the pairs. -/
def scheduleHead (memo : Bool) (first : Command) (memos : List Command) : Bytes :=
  transactionHeader first ++ [scheduleKind memo] ++ recipientBytes first ++
    (if memo then memoBytes first memos else []) ++ [(transactionBody first).getD 93 0]

/-- The memo is complete, or there is none. -/
def MemoComplete (memo : Bool) (first : Command) (memos : List Command) : Prop :=
  if memo then (memos.flatMap Command.data).length = declaredMemo first else memos = []

section Schedule
variable [Platform] {cmd first : Command} {memos : List Command} {memo : Bool} {s t w : World}
  {Q : Unit → World → Prop}

/-! ## The first review -/

/-- The rows show the memo: the one item that its bytes encode. -/
def MemoShown (memos : List Command) (rows : List Row) : Prop :=
  ∃ i, Displayable i ∧ i.encode = memos.flatMap Command.data ∧
    [row "Memo type" (itemLabel i), row "Memo" (itemDisplay i)] ⊆ rows

/-- The first review shows who sends and who receives, and the memo. -/
structure TransferIntro (memo : Bool) (first : Command) (memos : List Command)
    (rows : List Row) : Prop where
  sender : ∃ account item, HeaderShown account (transactionHeader first) ∧
    accountHeaderPairs account item ⊆ rows
  recipient : ∃ text, AddressShown text (recipientBytes first) ∧ row "Recipient" text ∈ rows
  memo : memo = true → MemoShown memos rows

/-- The header has been hashed, and the recipient's text is in the context. -/
structure ScheduleOpened (first : Command) (w : World) : Prop where
  header : HeaderShown w.accountSender (transactionHeader first)
  recipient : AddressShown w.schedule.displayStr.text (recipientBytes first)
  left : w.schedule.remainingNumberOfScheduledAmounts = declaredReleases first
  inPacket : w.schedule.scheduledAmountsInCurrentPacket = 0
  accepted : Concordium.accepted w.log = []

/-- The memo that the flow reads. -/
def World.scheduleMemo (w : World) : CborContext :=
  (w.global.view (WithDataBlob SignTransferWithScheduleContext)).cborContext

theorem schedule_of {ctx : WithDataBlob SignTransferWithScheduleContext}
    (h : w.global = Member.inject ctx) : w.schedule = ctx.tx := by
  rw [World.schedule, h, InstructionContext.view_inject]

theorem scheduleMemo_of {ctx : WithDataBlob SignTransferWithScheduleContext}
    (h : w.global = Member.inject ctx) : w.scheduleMemo = ctx.cborContext := by
  rw [World.scheduleMemo, h, InstructionContext.view_inject]

/-- The memo is arriving. -/
structure MemoArriving (first : Command) (memos : List Command) (w : World) : Prop where
  opened : ScheduleOpened first w
  state : w.schedule.state = .memoStart ∧ memos = [] ∨ w.schedule.state = .memo ∧
    w.scheduleMemo.cborBuf = memos.flatMap Command.data
  left : w.scheduleMemo.cborLength + (memos.flatMap Command.data).length = declaredMemo first
  hashed : w.txState.hash = transactionHeader first ++ [scheduleKind true] ++
    recipientBytes first ++ memoBytes first memos

/-- The first review is on screen. -/
structure IntroReviewing (memo : Bool) (first : Command) (memos : List Command) (w : World) :
    Prop where
  complete : MemoComplete memo first memos
  left : w.schedule.remainingNumberOfScheduledAmounts = declaredReleases first
  inPacket : w.schedule.scheduledAmountsInCurrentPacket = 0
  hashed : w.txState.hash = scheduleHead memo first memos
  accepted : Concordium.accepted w.log = []
  actions : ∀ c ∈ w.screen.actions, c = .confirmInitialScheduledTransfer ∨ c = .sendUserRejection
  shown : TransferIntro memo first memos w.screen.rows
  screen : onScreen w.log = w.screen.rows

/-- The first review. -/
theorem wp_startInitialScheduledTransferDisplay (memo : Bool) (first : Command)
    (memos : List Command) {E : Exception → World → Prop}
    (h : ScheduleOpened first s) (hcomplete : MemoComplete memo first memos)
    (hmemo : memo = true → MemoShown memos (memoRows s.scheduleMemo memo))
    (hhash : s.txState.hash = scheduleHead memo first memos)
    (hQ : ∀ t, t.latch = s.latch → t.replyPending = s.replyPending →
      IntroReviewing memo first memos t → Q () t) :
    wp (startInitialScheduledTransferDisplay memo) Q E s := by
  have shown (rows : List Row) (actions : List Callback) (item : String)
      (hrows : accountHeaderPairs s.accountSender item ++
        (row "Recipient" s.schedule.displayStr.text :: memoRows s.scheduleMemo memo) ⊆ rows)
      (hactions : ∀ c ∈ actions, c = .confirmInitialScheduledTransfer ∨ c = .sendUserRejection) :
      wp (showScreen rows actions) Q E s := by
    rw [wp_showScreen]
    refine hQ _ rfl rfl ⟨hcomplete, h.left, h.inPacket, hhash, ?_, hactions, ⟨?_, ?_, ?_⟩, ?_⟩
    · simp [Event.accepts, h.accepted]
    · exact ⟨_, item, h.header, List.Subset.trans (List.subset_append_left _ _) hrows⟩
    · exact ⟨_, h.recipient, hrows (by simp)⟩
    · intro hm
      obtain ⟨i, hi, hencode, hsub⟩ := hmemo hm
      exact ⟨i, hi, hencode, fun r hr => hrows (List.mem_append_right _
        (List.mem_cons_of_mem _ (hsub hr)))⟩
    · simp [Event.accepts, World.screenOf]
  unfold startInitialScheduledTransferDisplay
  simp only [wp_bind, wp_getCtx, wp_get]
  cases (Platform.backend : Backend) with
  | nbgl =>
    refine shown _ _ "Sender" ?_ (by simp)
    intro r hr
    simp only [World.schedule, World.scheduleMemo, List.mem_append, List.mem_cons] at hr
    rcases hr with hr | rfl | hr
    · simp [hr]
    · simp
    · simp [hr]
  | bagl =>
    refine shown _ _ "From" ?_ (by simp)
    intro r hr
    simp only [World.schedule, World.scheduleMemo, List.mem_append, List.mem_cons] at hr
    rcases hr with hr | rfl | hr
    · simp [hr]
    · simp
    · simp [hr]

/-- The user confirms the transfer, or ends it. -/
theorem IntroReviewing.answered {c : Callback} (h : IntroReviewing memo first memos s)
    (hc : c ∈ s.screen.actions) :
    wp (runCallback c) (fun _ t => t.latch = none ∨ t.replyPending = false ∧
      ReleasesBetween (scheduleHead memo first memos) (declaredReleases first) s.screen.rows [] t)
      (fun _ _ => True) (s.activated c) := by
  rcases h.actions c hc with rfl | rfl
  · change wp (uxRunGuarded confirmInitialScheduledTransfer) _ _ _
    unfold uxRunGuarded
    rw [wp_catching]
    unfold confirmInitialScheduledTransfer
    rw [wp_bind, wp_modifyCtx]
    change wp (ioSendResponse [] swoSuccess) _ _ _
    rw [wp_ioSendResponse]
    have hschedule (screen : Screen) (log : List Event) : World.schedule { s with
        screen := screen
        global := Member.inject ({ s.global.view (WithDataBlob SignTransferWithScheduleContext) with
          tx := { s.schedule with state := .transferPairs } } :
            WithDataBlob SignTransferWithScheduleContext)
        replyPending := false
        log := log } = { s.schedule with state := .transferPairs } :=
      congrArg WithDataBlob.tx (InstructionContext.view_inject _)
    refine .inr ⟨rfl, ⟨?_, ?_, ?_, rfl, fun hno => absurd rfl hno, ?_⟩, ?_, [], .nil, ?_⟩
    · exact congrArg SignTransferWithScheduleContext.state (hschedule _ _)
    · rw [List.flatten_nil, List.append_nil]
      exact h.hashed
    · exact (congrArg SignTransferWithScheduleContext.scheduledAmountsInCurrentPacket
        (hschedule _ _)).trans h.inPacket
    · rw [List.length_nil, Nat.zero_add]
      exact (congrArg SignTransferWithScheduleContext.remainingNumberOfScheduledAmounts
        (hschedule _ _)).trans h.left
    · exact (Nat.eq_zero_or_pos _).symm
    · simp [World.activated, Event.accepts, Callback.isIdle, Callback.isRejection, h.accepted,
        h.screen]
  · change wp sendUserRejection _ _ _
    rw [wp_sendUserRejection]
    exact .inl rfl

/-! ## Opening packets -/

omit [Platform] in
theorem getD_eq_of_drop {bs : Bytes} {k i : ℕ} : (bs.drop k).getD i 0 = bs.getD (k + i) 0 := by
  simp [List.getD_eq_getElem?_getD, List.getElem?_drop]

theorem TransferOpened.schedule {kind : UInt8} {displayStr : Buf 57}
    {ctx : WithDataBlob SignTransferWithScheduleContext}
    (h : TransferOpened first kind displayStr.text s t) (hw : w.global = Member.inject ctx)
    (hsender : w.accountSender = t.accountSender)
    (hlog : Concordium.accepted w.log = Concordium.accepted t.log)
    (hacc : Concordium.accepted s.log = []) (htext : ctx.tx.displayStr = displayStr)
    (hleft : ctx.tx.remainingNumberOfScheduledAmounts = declaredReleases first)
    (hin : ctx.tx.scheduledAmountsInCurrentPacket = 0) : ScheduleOpened first w := by
  have htx := schedule_of hw
  refine ⟨?_, ?_, ?_, ?_, ?_⟩
  · rw [hsender]
    exact h.header
  · rw [htx, htext]
    exact h.recipient
  · rw [htx, hleft]
  · rw [htx, hin]
  · rw [hlog, h.accepted, hacc]

/-- The first packet without a memo. -/
theorem wp_scheduleInitial (hacc : Concordium.accepted s.log = [])
    (hin : s.schedule.scheduledAmountsInCurrentPacket = 0)
    (hQ : ∀ t, t.replyPending = s.replyPending → IntroReviewing false cmd [] t → Q () t) :
    wp (scheduleInitial cmd) Q (fun _ _ => True) s := by
  unfold scheduleInitial
  rw [wp_bind, wp_throwIf]
  refine ⟨fun _ => trivial, fun _ => ?_⟩
  rw [wp_bind, wp_getCtx, wp_bind]
  refine wp_handleHeaderAndToAddress fun displayStr t hlength ht => ?_
  dsimp only
  rw [wp_bind, wp_advance]
  refine ⟨fun _ => ?_, fun _ => trivial⟩
  rw [wp_bind, wp_throwIf]
  refine ⟨fun _ => trivial, fun _ => ?_⟩
  rw [wp_bind, wp_u8]
  refine ⟨fun _ => ?_, fun _ => trivial⟩
  have hcount : (cmd.data.drop (1 + (cmd.data.getD 0 0).toNat * 4 + 61 + 32)).getD 0 0 =
      (transactionBody cmd).getD 93 0 := by
    rw [transactionBody, getD_eq_of_drop, getD_eq_of_drop]
  rw [hcount, wp_bind, wp_updateHash, wp_bind]
  refine wp_reads _ (fun fee _ => ?_) fun _ _ => trivial
  rw [wp_bind, wp_setCtx]
  refine wp_startInitialScheduledTransferDisplay false cmd []
    (ht.schedule rfl rfl (by simp [Event.accepts]) hacc rfl rfl hin) rfl
    (fun h => nomatch h) ?_ fun v _ hv hreview => hQ v (hv.trans ht.reply) hreview
  simp only [ht.hash, scheduleHead, scheduleKind, Bool.false_eq_true, if_false, List.append_nil]

/-- The first packet with a memo. -/
theorem wp_scheduleMemoInitial (hacc : Concordium.accepted s.log = [])
    (hin : s.schedule.scheduledAmountsInCurrentPacket = 0)
    (hQ : ∀ t, t.replyPending = false → MemoArriving cmd [] t → Q () t) :
    wp (scheduleMemoInitial cmd) Q (fun _ _ => True) s := by
  unfold scheduleMemoInitial
  rw [wp_bind, wp_throwIf]
  refine ⟨fun _ => trivial, fun _ => ?_⟩
  rw [wp_bind, wp_getCtx, wp_bind]
  refine wp_handleHeaderAndToAddress fun displayStr t hlength ht => ?_
  dsimp only
  rw [wp_bind, wp_advance]
  refine ⟨fun _ => ?_, fun _ => trivial⟩
  rw [wp_bind, wp_throwIf]
  refine ⟨fun _ => trivial, fun _ => ?_⟩
  rw [wp_bind, wp_u8]
  refine ⟨fun _ => ?_, fun _ => trivial⟩
  have hcount : (cmd.data.drop (1 + (cmd.data.getD 0 0).toNat * 4 + 61 + 32)).getD 0 0 =
      (transactionBody cmd).getD 93 0 := by
    rw [transactionBody, getD_eq_of_drop, getD_eq_of_drop]
  have hmemo : (((cmd.data.drop (1 + (cmd.data.getD 0 0).toNat * 4 + 61 + 32)).drop 1).drop
      0).take 2 = ((transactionBody cmd).drop 94).take 2 := by
    rw [transactionBody, List.drop_zero, List.drop_drop, List.drop_drop]
  rw [hcount, wp_bind, wp_advance]
  refine ⟨fun _ => ?_, fun _ => trivial⟩
  rw [wp_bind, wp_u2be]
  refine ⟨fun _ => ?_, fun _ => trivial⟩
  rw [hmemo, wp_bind, wp_throwIf]
  refine ⟨fun _ => trivial, fun _ => ?_⟩
  rw [wp_bind, wp_slice]
  refine ⟨fun _ => ?_, fun _ => trivial⟩
  rw [hmemo, wp_bind, wp_updateHash, wp_bind]
  refine wp_reads _ (fun fee _ => ?_) fun _ _ => trivial
  rw [wp_bind, wp_setCtx]
  change wp (ioSendResponse [] swoSuccess) _ _ _
  rw [wp_ioSendResponse]
  refine hQ _ rfl ⟨ht.schedule rfl rfl (by simp [Event.accepts]) hacc rfl rfl hin,
    .inl ⟨?_, rfl⟩, ?_, ?_⟩
  · rw [schedule_of rfl]
  · rw [scheduleMemo_of rfl]
    rfl
  · simp only [ht.hash, memoBytes, List.flatMap_nil, List.append_nil]
    rfl

/-! ## Memo packets -/

/-- A memo packet, whichever reader takes it. -/
theorem wp_memoArriving (hc : DecodesItems Platform.cbor)
    {readCbor : CborContext → Bytes → App (UInt16 × CborContext)}
    (h : MemoArriving first memos s)
    (hread : ∀ u (Q : UInt16 × CborContext → World → Prop),
      (∀ cbor, cbor.cborBuf = (memos ++ [cmd]).flatMap Command.data →
        cbor.cborLength + cmd.data.length = s.scheduleMemo.cborLength → Q (cborRead cbor) u) →
      wp (readCbor s.scheduleMemo cmd.data) Q (fun _ _ => True) u)
    (hmore : ∀ t, t.replyPending = false → MemoArriving first (memos ++ [cmd]) t → Q () t)
    (hdone : ∀ t, t.replyPending = s.replyPending →
      IntroReviewing true first (memos ++ [cmd]) t → Q () t)
    (hfree : ∀ t, t.latch = none → Q () t) :
    wp (scheduleMemoPacket cmd readCbor) Q (fun _ _ => True) s := by
  have hmemo : (memos ++ [cmd]).flatMap Command.data =
      memos.flatMap Command.data ++ cmd.data := by
    rw [List.flatMap_append, List.flatMap_singleton]
  unfold scheduleMemoPacket
  rw [wp_bind, wp_throwIf]
  refine ⟨fun _ => trivial, fun _ => ?_⟩
  rw [wp_bind, wp_updateHash, wp_bind, wp_getCtx, wp_bind]
  refine hread _ _ fun cbor hbuf hlength => ?_
  have hleft := h.left
  have hopened {ctx : WithDataBlob SignTransferWithScheduleContext} {t : World}
      (hw : t.global = Member.inject ctx) (hsender : t.accountSender = s.accountSender)
      (hlog : Concordium.accepted t.log = Concordium.accepted s.log)
      (htext : ctx.tx.displayStr = s.schedule.displayStr)
      (hcount : ctx.tx.remainingNumberOfScheduledAmounts =
        s.schedule.remainingNumberOfScheduledAmounts)
      (hin : ctx.tx.scheduledAmountsInCurrentPacket =
        s.schedule.scheduledAmountsInCurrentPacket) : ScheduleOpened first t := by
    have htx := schedule_of hw
    refine ⟨?_, ?_, ?_, ?_, ?_⟩
    · rw [hsender]
      exact h.opened.header
    · rw [htx, htext]
      exact h.opened.recipient
    · rw [htx, hcount, h.opened.left]
    · rw [htx, hin, h.opened.inPacket]
    · rw [hlog, h.opened.accepted]
  have hcounter : (cborRead cbor).2.cborLength = cbor.cborLength := cborRead_cborLength hc cbor
  by_cases hzero : cbor.cborLength = 0
  · have hparsed : BlobParsed cbor (cborRead cbor) := by
      rw [cborRead, if_pos hzero]
      exact blobParsed_parsedCbor hc cbor
    generalize cborRead cbor = out at hcounter hparsed
    obtain ⟨sw, out⟩ := out
    dsimp only at hcounter hparsed ⊢
    rw [wp_bind, wp_setCtx]
    refine wp_if (fun _ => ?_) fun hsw => wp_if (fun _ => ?_) fun hno => absurd
      (hcounter.trans hzero) hno
    · rw [wp_sendRejection]
      exact hfree _ rfl
    · obtain ⟨-, -, ⟨-, i, hi, hencode, hshows⟩ | ⟨hno, -⟩⟩ := hparsed
      · unfold finishMemoScheduled
        rw [wp_bind, wp_getCtx]
        dsimp only
        rw [InstructionContext.view_inject, wp_bind, wp_updateHash, wp_bind, wp_setCtx]
        have hcount : UInt8.ofNat s.schedule.remainingNumberOfScheduledAmounts =
            (transactionBody first).getD 93 0 := by
          rw [h.opened.left, declaredReleases, UInt8.ofNat_toNat]
        refine wp_startInitialScheduledTransferDisplay true first (memos ++ [cmd])
          (hopened rfl rfl (by simp [Event.accepts]) rfl rfl rfl) ?_ (fun _ => ?_) ?_
          fun t _ ht hreview => hdone t ht hreview
        · change ((memos ++ [cmd]).flatMap Command.data).length = declaredMemo first
          rw [hmemo, List.length_append]
          omega
        · refine ⟨i, hi, hencode.symm.trans hbuf, ?_⟩
          rw [scheduleMemo_of rfl, ← hshows.label, ← hshows.display]
          exact List.Subset.refl _
        · change s.txState.hash ++ cmd.data ++
            [UInt8.ofNat s.schedule.remainingNumberOfScheduledAmounts] = _
          rw [hcount, h.hashed]
          simp only [scheduleHead, scheduleKind, if_true, memoBytes, hmemo, List.append_assoc]
      · exact absurd (not_not.mp hsw) hno
  · rw [cborRead_incomplete hzero]
    dsimp only
    rw [wp_bind, wp_setCtx]
    refine wp_if (fun hsw => absurd rfl hsw) fun _ =>
      wp_if (fun hno => absurd hno hzero) fun _ => ?_
    rw [wp_bind, wp_setCtx]
    change wp (ioSendResponse [] swoSuccess) _ _ _
    rw [wp_ioSendResponse]
    refine hmore _ rfl ⟨hopened rfl rfl (by simp [Event.accepts]) rfl rfl rfl,
      .inr ⟨?_, ?_⟩, ?_, ?_⟩
    · rw [schedule_of rfl]
    · rw [scheduleMemo_of rfl, hbuf]
    · rw [scheduleMemo_of rfl, hmemo, List.length_append]
      dsimp only
      omega
    · change s.txState.hash ++ cmd.data = _
      simp only [h.hashed, memoBytes, hmemo, List.append_assoc]

/-! ## The flow -/

/-- All the pairs that have arrived are whole. -/
def WholePairs (n : ℕ) (packets : List Command) : Prop :=
  ∀ pair ∈ sentPairs n packets, pair.length = 16

/-- Where the flow stands between packets, by the packets that carried data. -/
inductive ScheduleStage (memo : Bool) (w : World) : List Command → Prop where
  | unopened (hs : w.schedule.state = .unset) : ScheduleStage memo w []
  | memo {first : Command} {memos : List Command} (hm : memo = true)
    (h : MemoArriving first memos w) : ScheduleStage memo w (first :: memos)
  | pairs {first : Command} {memos packets : List Command} {intro : List Row}
    (hmemo : MemoComplete memo first memos) (hintro : TransferIntro memo first memos intro)
    (hwhole : WholePairs (declaredReleases first) packets)
    (h : ReleasesBetween (scheduleHead memo first memos) (declaredReleases first) intro
      (sentPairs (declaredReleases first) packets) w) :
    ScheduleStage memo w (first :: (memos ++ packets))

/-- Where it stands under review. -/
inductive ScheduleReview (memo : Bool) (w : World) : List Command → Prop where
  | intro {first : Command} {memos : List Command} (h : IntroReviewing memo first memos w) :
    ScheduleReview memo w (first :: memos)
  | pair {first : Command} {memos packets : List Command} {intro : List Row}
    {pairs pending : List Bytes} {pair : Bytes}
    (hmemo : MemoComplete memo first memos) (hintro : TransferIntro memo first memos intro)
    (hwhole : WholePairs (declaredReleases first) packets)
    (hsent : pairs ++ pair :: pending = sentPairs (declaredReleases first) packets)
    (h : PairReviewing (scheduleHead memo first memos) (declaredReleases first) intro pairs pair
      pending w) :
    ScheduleReview memo w (first :: (memos ++ packets))
  | last {first : Command} {memos packets : List Command} {intro : List Row}
    {pairs : List Bytes} {pair : Bytes}
    (hmemo : MemoComplete memo first memos) (hintro : TransferIntro memo first memos intro)
    (hwhole : WholePairs (declaredReleases first) packets)
    (hsent : pairs ++ [pair] = sentPairs (declaredReleases first) packets)
    (h : LastPairReviewing (scheduleHead memo first memos) (declaredReleases first) intro pairs
      pair w) :
    ScheduleReview memo w (first :: (memos ++ packets))

/-- The flow waits for a packet. -/
def ScheduleBetween (memo : Bool) (ps : List Command) (w : World) : Prop :=
  ScheduleStage memo w (carried ps)

/-- A release, or what stands ahead of the releases, is under review. -/
def ScheduleUnderReview (memo : Bool) (ps : List Command) (w : World) : Prop :=
  ScheduleReview memo w (carried ps)

theorem Releases.still {head : Bytes} {n : ℕ} {pairs pending : List Bytes}
    (h : Releases head n pairs pending s) (hg : t.global = s.global)
    (hhash : t.txState.hash = s.txState.hash) : Releases head n pairs pending t := by
  have htx : t.schedule = s.schedule := by rw [World.schedule, hg, World.schedule]
  refine ⟨?_, hhash.trans h.hashed, ?_, ?_, ?_, ?_⟩
  · rw [htx, h.state]
  · rw [htx, h.inPacket]
  · rw [htx, h.buffered]
  · rw [htx]
    exact h.fits
  · rw [htx, h.count]

theorem MemoArriving.still (h : MemoArriving first memos s) (hst : Still s t)
    (hacc : Concordium.accepted t.log = Concordium.accepted s.log) :
    MemoArriving first memos t := by
  have hg : t.global = s.global := by rw [hst]
  have htx : t.schedule = s.schedule := by rw [World.schedule, hg, World.schedule]
  have hcbor : t.scheduleMemo = s.scheduleMemo := by
    rw [World.scheduleMemo, hg, World.scheduleMemo]
  have hsender : t.accountSender = s.accountSender := by rw [hst]
  have hhash : t.txState.hash = s.txState.hash := by rw [hst]
  refine ⟨⟨?_, ?_, ?_, ?_, ?_⟩, ?_, ?_, ?_⟩
  · rw [hsender]
    exact h.opened.header
  · rw [htx]
    exact h.opened.recipient
  · rw [htx, h.opened.left]
  · rw [htx, h.opened.inPacket]
  · rw [hacc, h.opened.accepted]
  · rw [htx, hcbor]
    exact h.state
  · rw [hcbor, h.left]
  · rw [hhash, h.hashed]

theorem ScheduleStage.still {ps : List Command} (h : ScheduleStage memo s ps) (hst : Still s t)
    (hacc : Concordium.accepted t.log = Concordium.accepted s.log) : ScheduleStage memo t ps := by
  have hg : t.global = s.global := by rw [hst]
  cases h with
  | unopened hs =>
    refine .unopened ?_
    rw [World.schedule, hg]
    exact hs
  | memo hm h => exact .memo hm (h.still hst hacc)
  | pairs hmemo hintro hwhole h =>
    have hhash : t.txState.hash = s.txState.hash := by rw [hst]
    exact .pairs hmemo hintro hwhole ⟨h.releases.still hg hhash, h.more, h.accepted.of_eq hacc⟩

/-- The next pair, as a stage of the flow. -/
theorem NextPair.flowing {ps packets : List Command} {intro : List Row}
    {pairs pending : List Bytes} {ins : UInt8} (hp : s.replyPending = true)
    (hmemo : MemoComplete memo first memos) (hintro : TransferIntro memo first memos intro)
    (hps : carried ps = first :: (memos ++ packets))
    (hwhole : WholePairs (declaredReleases first) packets)
    (hsent : pairs ++ pending = sentPairs (declaredReleases first) packets)
    (h : NextPair (scheduleHead memo first memos) (declaredReleases first) intro pairs pending s
      t) :
    Flowing ins (ScheduleBetween memo ps) (ScheduleUnderReview memo ps) t := by
  cases pending with
  | nil =>
    obtain ⟨htp, hbetween⟩ := h.packet rfl
    refine .of_between htp ?_
    rw [List.append_nil] at hsent
    rw [hsent] at hbetween
    unfold ScheduleBetween
    rw [hps]
    exact .pairs hmemo hintro hwhole hbetween
  | cons pair rest =>
    obtain ⟨htp, hreview⟩ := h.next pair rest rfl
    refine .of_review (htp.trans hp) ?_
    unfold ScheduleUnderReview
    rw [hps]
    rcases hreview with hreview | ⟨rfl, hreview⟩
    · exact .pair hmemo hintro hwhole hsent hreview
    · exact .last hmemo hintro hwhole hsent hreview

/-- The user goes on with the transfer, from release to release, or ends it. -/
theorem ScheduleReview.flowing {ps : List Command} {c : Callback} {ins : UInt8}
    (h : ScheduleReview memo s (carried ps)) (hc : c ∈ s.screen.actions)
    (hp : s.replyPending = true) :
    wp (runCallback c)
      (fun _ t => Flowing ins (ScheduleBetween memo ps) (ScheduleUnderReview memo ps) t)
      (fun _ _ => True) (s.activated c) := by
  generalize hps : carried ps = qs at h
  cases h with
  | intro h =>
    refine wp_mono (fun _ t ht => ?_) (fun _ _ hE => hE) (h.answered hc)
    rcases ht with ht | ⟨htp, ht⟩
    · exact .of_free ht
    · refine .of_between htp ?_
      unfold ScheduleBetween
      rw [hps, ← List.append_nil (_ :: _)]
      exact .pairs h.complete h.shown (fun _ hp => nomatch hp) ht
  | @pair first memos packets intro pairs pending pair hmemo hintro hwhole hsent h =>
    rcases h.actions c hc with rfl | rfl
    · change wp (uxRunGuarded processNextScheduledAmount) _ _ _
      unfold uxRunGuarded
      rw [wp_catching]
      have haccepted : AcceptedPairs intro (pairs ++ [pair])
          (s.activated .processNextScheduledAmountContinue) := by
        refine h.accepted.snoc h.shown ?_
        simp [World.activated, Event.accepts, Callback.isIdle, Callback.isRejection, h.screen]
      refine wp_mono (fun _ t ht => ?_) (fun e t _ => ⟨fun sw _ => ?_, fun _ => trivial⟩)
        (wp_processNextScheduledAmount (h.releases.still rfl rfl) haccepted fun _ => .inl h.more)
      · refine ht.flowing ?_ hmemo hintro hps hwhole ?_
        · exact hp
        · rw [List.append_assoc]
          exact hsent
      · rw [wp_bind, wp_endFlow, wp_uiMenuMain]
        exact .of_free rfl
    · change wp sendUserRejection _ _ _
      rw [wp_sendUserRejection]
      exact .of_free rfl
  | last _ _ _ _ h =>
    rw [h.actions] at hc
    exact wp_mono (fun _ t ht => .of_free ht) (fun _ _ hE => hE) (wp_signFlowShared hc)

/-- The handler of the instruction. -/
def scheduleHandler (memo : Bool) (cmd : Command) (isInitialCall : Bool) : App Unit :=
  if memo then handleSignTransferWithScheduleAndMemo cmd isInitialCall
  else handleSignTransferWithSchedule cmd isInitialCall

theorem dispatch_schedule {isInitialCall : Bool} (hins : cmd.ins = scheduleIns memo) :
    dispatchInstruction cmd isInitialCall =
      withData cmd (scheduleHandler memo cmd isInitialCall) := by
  unfold dispatchInstruction
  rw [hins]
  cases memo <;> rfl

/-- The context when the first packet is dispatched. -/
def World.scheduleStarted (s : World) : World :=
  { s with
    global := Member.inject
      ({ tx := { state := .initial } } : WithDataBlob SignTransferWithScheduleContext) }

theorem wp_scheduleStart {E : Exception → World → Prop} (hz : s.global = .zeroed) :
    wp (scheduleStart true) Q E s = Q () s.scheduleStarted := by
  unfold scheduleStart
  rw [if_pos rfl, wp_modifyCtx, hz, InstructionContext.view_zeroed]
  rfl

theorem schedule_scheduleStarted : s.scheduleStarted.schedule = { state := .initial } := by
  rw [schedule_of rfl]

/-- The first packet of either flow. -/
theorem wp_scheduleFirst (hz : s.global = .zeroed) (hacc : Concordium.accepted s.log = [])
    (hintro : ∀ t, memo = false → t.replyPending = s.replyPending →
      IntroReviewing false cmd [] t → Q () t)
    (hmemo : ∀ t, memo = true → t.replyPending = false → MemoArriving cmd [] t → Q () t) :
    wp (scheduleHandler memo cmd true) Q (fun _ _ => True) s := by
  have hin : s.scheduleStarted.schedule.scheduledAmountsInCurrentPacket = 0 := by
    rw [schedule_scheduleStarted]
  have hother {state : TransferWithScheduleState} (hne : state ≠ .initial)
      (h : s.scheduleStarted.schedule.state = state) : False :=
    hne (h.symm.trans (congrArg _ schedule_scheduleStarted))
  cases memo with
  | false =>
    change wp (handleSignTransferWithSchedule cmd true) _ _ _
    unfold handleSignTransferWithSchedule
    rw [wp_bind, wp_scheduleStart hz, wp_bind, wp_getCtx]
    refine wp_if (fun _ => ?_) fun _ => wp_if (fun h => (hother (by decide) h.2).elim) fun _ =>
      trivial
    exact wp_scheduleInitial hacc hin fun t htp ht => hintro t rfl htp ht
  | true =>
    change wp (handleSignTransferWithScheduleAndMemo cmd true) _ _ _
    unfold handleSignTransferWithScheduleAndMemo
    rw [wp_bind, wp_scheduleStart hz, wp_bind, wp_getCtx]
    refine wp_if (fun _ => ?_) fun _ => wp_if (fun h => (hother (by decide) h.2).elim) fun _ =>
      wp_if (fun h => (hother (by decide) h.2).elim) fun _ =>
      wp_if (fun h => (hother (by decide) h.2).elim) fun _ => trivial
    exact wp_scheduleMemoInitial hacc hin fun t htp ht => hmemo t rfl htp ht

/-- A packet behind the first one. -/
theorem ScheduleStage.flowing {ps : List Command} {ins : UInt8} (hc : DecodesItems Platform.cbor)
    (h : ScheduleStage memo s (carried ps)) (hd : cmd.data ≠ []) (hp : s.replyPending = true) :
    wp (scheduleHandler memo cmd false)
      (fun _ t => Flowing ins (ScheduleBetween memo (ps ++ [cmd]))
        (ScheduleUnderReview memo (ps ++ [cmd])) t) (fun _ _ => True) s := by
  have hcarried : carried (ps ++ [cmd]) = carried ps ++ [cmd] := carried_snoc hd
  have hpairs (hstate : s.schedule.state = .transferPairs) : wp (schedulePairsPacket cmd)
      (fun _ t => Flowing ins (ScheduleBetween memo (ps ++ [cmd]))
        (ScheduleUnderReview memo (ps ++ [cmd])) t) (fun _ _ => True) s := by
    unfold schedulePairsPacket
    rw [wp_bind, wp_throwIf]
    refine ⟨fun _ => trivial, fun _ => ?_⟩
    generalize carried ps = qs at h hcarried
    cases h with
    | unopened hs => cases hs.symm.trans hstate
    | memo _ h =>
      rcases h.state with ⟨hs, -⟩ | ⟨hs, -⟩
      · cases hs.symm.trans hstate
      · cases hs.symm.trans hstate
    | @pairs first memos packets intro hmemo hintro hwhole h =>
      refine wp_handleTransferPairs h fun t hlong ht => ?_
      have hsent := sentPairs_snoc (declaredReleases first) packets cmd
      refine ht.flowing hp hmemo hintro (hcarried.trans ?_) (fun pair hpair => ?_) hsent.symm
      · rw [List.cons_append, List.append_assoc]
      · rw [hsent] at hpair
        rcases List.mem_append.mp hpair with hpair | hpair
        · exact hwhole pair hpair
        · exact length_of_mem_pairsOf hlong hpair
  have hmemos {readCbor : CborContext → Bytes → App (UInt16 × CborContext)} (hm : memo = true)
      (hread : ∀ first memos, MemoArriving first memos s →
        ∀ u (Q : UInt16 × CborContext → World → Prop),
          (∀ cbor, cbor.cborBuf = (memos ++ [cmd]).flatMap Command.data →
            cbor.cborLength + cmd.data.length = s.scheduleMemo.cborLength →
            Q (cborRead cbor) u) →
          wp (readCbor s.scheduleMemo cmd.data) Q (fun _ _ => True) u)
      (hstate : s.schedule.state = .memoStart ∨ s.schedule.state = .memo) :
      wp (scheduleMemoPacket cmd readCbor)
        (fun _ t => Flowing ins (ScheduleBetween memo (ps ++ [cmd]))
          (ScheduleUnderReview memo (ps ++ [cmd])) t) (fun _ _ => True) s := by
    subst hm
    generalize carried ps = qs at h hcarried
    cases h with
    | unopened hs =>
      rcases hstate with hstate | hstate
      · cases hs.symm.trans hstate
      · cases hs.symm.trans hstate
    | @memo first memos _ h =>
      refine wp_memoArriving hc h (hread first memos h) (fun t htp ht => ?_)
        (fun t htp ht => ?_) fun t ht => .of_free ht
      · refine .of_between htp ?_
        unfold ScheduleBetween
        rw [hcarried]
        exact .memo rfl ht
      · refine .of_review (htp.trans hp) ?_
        unfold ScheduleUnderReview
        rw [hcarried]
        exact .intro ht
    | pairs _ _ _ h =>
      rcases hstate with hstate | hstate
      · cases h.releases.state.symm.trans hstate
      · cases h.releases.state.symm.trans hstate
  have hinitial : s.schedule.state ≠ .initial := by
    intro hstate
    generalize carried ps = qs at h
    cases h with
    | unopened hs => cases hs.symm.trans hstate
    | memo _ h =>
      rcases h.state with ⟨hs, -⟩ | ⟨hs, -⟩
      · cases hs.symm.trans hstate
      · cases hs.symm.trans hstate
    | pairs _ _ _ h => cases h.releases.state.symm.trans hstate
  cases memo with
  | false =>
    change wp (handleSignTransferWithSchedule cmd false) _ _ _
    unfold handleSignTransferWithSchedule scheduleStart
    rw [wp_bind, if_neg Bool.false_ne_true, wp_pure, wp_bind, wp_getCtx]
    refine wp_if (fun h => absurd h.2 hinitial) fun _ => wp_if (fun h => hpairs h.2) fun _ =>
      trivial
  | true =>
    change wp (handleSignTransferWithScheduleAndMemo cmd false) _ _ _
    unfold handleSignTransferWithScheduleAndMemo scheduleStart
    rw [wp_bind, if_neg Bool.false_ne_true, wp_pure, wp_bind, wp_getCtx]
    refine wp_if (fun h => absurd h.2 hinitial) fun _ => wp_if (fun h => hmemos rfl ?_ (.inl h.2))
      fun _ => wp_if (fun h => hmemos rfl ?_ (.inr h.2)) fun _ => wp_if (fun h => hpairs h.2)
      fun _ => trivial
    · intro first memos hm u Q hQ
      obtain ⟨-, rfl⟩ := hm.state.resolve_right fun hno => by cases h.2.symm.trans hno.1
      refine wp_readCborInitial hc (fun _ => trivial) fun _ hle => hQ _ ?_ ?_
      · simp
      · dsimp only
        omega
    · intro first memos hm u Q hQ
      obtain ⟨-, hbuf⟩ := hm.state.resolve_left fun hno => by cases h.2.symm.trans hno.1
      refine wp_readCborContent hc (fun _ => trivial) fun hle _ => hQ _ ?_ ?_
      · simp [hbuf]
      · dsimp only
        omega

theorem scheduleRules (hc : DecodesItems Platform.cbor) (memo : Bool) :
    FlowRules (scheduleIns memo) (ScheduleBetween memo) (ScheduleUnderReview memo) where
  still ps s t hst _ hacc hI := ScheduleStage.still hI hst hacc
  first cmd s hins hl hp hz _ hacc _ := by
    rw [dispatch_schedule hins]
    by_cases hd : cmd.data = []
    · refine wp_withData (fun _ => .of_between rfl ?_) fun h => absurd hd h
      unfold ScheduleBetween
      rw [← List.nil_append [cmd], carried_empty hd]
      refine .unopened ?_
      change (s.global.view (WithDataBlob SignTransferWithScheduleContext)).tx.state = _
      rw [hz, InstructionContext.view_zeroed]
      rfl
    · have hcarried : carried ([] ++ [cmd]) = [] ++ [cmd] := carried_snoc hd
      refine wp_withData (fun h => absurd h hd) fun _ => wp_scheduleFirst hz hacc
        (fun t hm htp ht => ?_) fun t hm htp ht => ?_
      · subst hm
        refine .of_review (htp.trans hp) ?_
        unfold ScheduleUnderReview
        rw [← List.nil_append [cmd], hcarried]
        exact .intro ht
      · refine .of_between htp ?_
        unfold ScheduleBetween
        rw [← List.nil_append [cmd], hcarried]
        exact .memo hm ht
  next ps cmd s hins hl hp hI := by
    rw [dispatch_schedule hins]
    by_cases hd : cmd.data = []
    · refine wp_withData (fun _ => .of_between rfl ?_) fun h => absurd hd h
      unfold ScheduleBetween
      rw [carried_empty hd]
      exact ScheduleStage.still hI rfl (by simp [World.answered, Event.accepts])
    · exact wp_withData (fun h => absurd h hd) fun _ => ScheduleStage.flowing hc hI hd hp
  answer ps c s hc hl hp hr := ScheduleReview.flowing hr hc hp

/-! ## Every run -/

/-- All the declared pairs have been hashed and shown, each on a screen of its
    own, behind the review of the transfer; the last of them is on screen. -/
structure ScheduleComplete (memo : Bool) (first : Command) (memos packets : List Command)
    (w : World) : Prop where
  memoComplete : MemoComplete memo first memos
  count : (sentPairs (declaredReleases first) packets).length = declaredReleases first
  whole : WholePairs (declaredReleases first) packets
  hashed : w.txState.hash =
    scheduleHead memo first memos ++ (sentPairs (declaredReleases first) packets).flatten
  reviewed : ∃ intro pairs pair screens, TransferIntro memo first memos intro ∧
    sentPairs (declaredReleases first) packets = pairs ++ [pair] ∧
    List.Forall₂ (PairScreen false) pairs screens ∧
    accepted w.log = intro ++ screens.flatten ∧ PairScreen true pair w.screen.rows

/-- A review that can be signed is that of the last pair. -/
theorem ScheduleReview.complete {ps : List Command} (h : ScheduleReview memo w ps)
    (ho : OffersSigning w) : ∃ first memos packets, ps = first :: (memos ++ packets) ∧
      ScheduleComplete memo first memos packets w := by
  cases h with
  | intro h => rcases h.actions _ ho.2 with hc | hc <;> cases hc
  | pair _ _ _ _ h => rcases h.actions _ ho.2 with hc | hc <;> cases hc
  | @last first memos packets intro pairs pair hmemo hintro hwhole hsent h =>
    obtain ⟨screens, hscreens, hacc⟩ := h.accepted
    refine ⟨first, memos, packets, rfl, hmemo, ?_, hwhole, ?_, intro, pairs, pair, screens, hintro,
      hsent.symm, hscreens, hacc, h.shown⟩
    · rw [← hsent, h.complete]
    · rw [← hsent]
      exact h.releases.hashed

/-- In every run in which reviews are answered once, a transfer with a schedule
    has hashed what its packets brought as far as it has been shown, and it can be
    signed only when the declared releases have all been shown, in order. -/
theorem scheduled_transfer_reviewed (memo : Bool) (hc : DecodesItems Platform.cbor)
    {inputs : List Input} (hgate : Along Concordium.step Answers World.start inputs)
    (hrun : runInputs World.start inputs = some w) (hl : w.latch = some (scheduleIns memo)) :
    (w.replyPending = false → ScheduleStage memo w (carried (openPackets inputs))) ∧
    (w.replyPending = true → ScheduleReview memo w (carried (openPackets inputs))) ∧
    (OffersSigning w → ∃ first memos packets,
      carried (openPackets inputs) = first :: (memos ++ packets) ∧
      ScheduleComplete memo first memos packets w) := by
  have hflow := (scheduleRules hc memo).run hgate hrun
  exact ⟨hflow.between hl, hflow.review hl, fun ho => (hflow.review hl ho.1).complete ho⟩

end Schedule

/-- A transfer with a memo and two releases. -/
def scheduleInputs : List Input :=
  [.apdu {
      ins := insSignTransferWithScheduleAndMemo
      p1 := SignTransferWithScheduleContext.p1InitialWithMemo
      p2 := 0
      data := 6 :: [44, 919, 0, 0, 0, 0].flatMap (toBe 4) ++
        (List.replicate 32 7 ++ toBe 8 1 ++ toBe 8 500 ++ toBe 4 4 ++ toBe 8 9) ++
        [kindTransferWithScheduleWithMemo] ++ List.replicate 32 5 ++ [2, 0, 4]
      lc_le := by simp },
    .apdu ⟨insSignTransferWithScheduleAndMemo, SignTransferWithScheduleContext.p1Memo, 0,
      [0x63, 65, 66, 67], by decide⟩,
    .activate .confirmInitialScheduledTransfer,
    .apdu ⟨insSignTransferWithScheduleAndMemo,
      SignTransferWithScheduleContext.p1ScheduledTransferPairs, 0,
      toBe 8 1000 ++ toBe 8 5 ++ toBe 8 2000 ++ toBe 8 6, by simp⟩,
    .activate .processNextScheduledAmountContinue]

/-- The rules at work: two releases have been shown, and can be signed. -/
theorem scheduled_transfer_two :
    letI : Platform := cborDevice .nbgl
    ∃ w, runInputs World.start scheduleInputs = some w ∧ OffersSigning w ∧
      ∃ first memos packets,
        carried (openPackets scheduleInputs) = first :: (memos ++ packets) ∧
        ScheduleComplete true first memos packets w := by
  let : Platform := cborDevice .nbgl
  have hrun : (runInputs World.start scheduleInputs).any (fun w =>
      decide (w.latch = some insSignTransferWithScheduleAndMemo ∧ w.replyPending = true ∧
        .buildAndSignTransactionHash ∈ w.screen.actions)) = true := by
    decide +kernel
  obtain ⟨w, hw, hrun⟩ := (Option.any_eq_true _ _).mp hrun
  obtain ⟨hl, hp, hoffer⟩ := of_decide_eq_true hrun
  have hgate : Along Concordium.step Answers World.start scheduleInputs := by
    decide +kernel
  exact ⟨w, hw, ⟨hp, hoffer⟩,
    (scheduled_transfer_reviewed true decodesItems_itemCursor hgate hw hl).2.2 ⟨hp, hoffer⟩⟩

end Concordium
