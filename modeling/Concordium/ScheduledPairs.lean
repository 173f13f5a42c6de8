/-
  The pairs of a transfer with a schedule (`sign_transfer_schedule.c`).

  A packet brings up to 15 pairs of a timestamp and an amount.  They are hashed
  and reviewed one by one, the first one when the packet arrives and each of the
  others when the user goes on from the one before.
-/
import Concordium.HashedFields
import Concordium.Timestamps

namespace Concordium

open Buffer Union Wp Runs

/-! ## Pairs -/

/-- The pairs at the start of some bytes, 16 bytes each. -/
def pairsOf : ℕ → Bytes → List Bytes
  | 0, _ => []
  | count + 1, bs => bs.take 16 :: pairsOf count (bs.drop 16)

/-- How many pairs the next packet brings when `left` are missing. -/
def batch (left : ℕ) : ℕ := min left 15

/-- The pairs that some packets bring when `left` are missing. -/
def sentPairs : ℕ → List Command → List Bytes
  | _, [] => []
  | left, cmd :: cmds => pairsOf (batch left) cmd.data ++ sentPairs (left - batch left) cmds

@[simp] theorem pairsOf_length (count : ℕ) (bs : Bytes) : (pairsOf count bs).length = count := by
  induction count generalizing bs with
  | zero => rfl
  | succ count ih => rw [pairsOf, List.length_cons, ih]

theorem pairsOf_congr {count : ℕ} {bs cs : Bytes}
    (h : bs.take (16 * count) = cs.take (16 * count)) : pairsOf count bs = pairsOf count cs := by
  induction count generalizing bs cs with
  | zero => rfl
  | succ count ih =>
    rw [show 16 * (count + 1) = 16 + 16 * count by omega] at h
    have hfirst : bs.take 16 = cs.take 16 := by
      simpa [List.take_take] using congrArg (List.take 16) h
    have hrest : (bs.drop 16).take (16 * count) = (cs.drop 16).take (16 * count) := by
      simpa [List.drop_take] using congrArg (List.drop 16) h
    rw [pairsOf, pairsOf, hfirst, ih hrest]

theorem length_of_mem_pairsOf {count : ℕ} {bs pair : Bytes} (h : 16 * count ≤ bs.length)
    (hp : pair ∈ pairsOf count bs) : pair.length = 16 := by
  induction count generalizing bs with
  | zero => cases hp
  | succ count ih =>
    rcases List.mem_cons.mp hp with rfl | hp
    · rw [List.length_take]
      omega
    · exact ih (by rw [List.length_drop]; omega) hp

theorem sentPairs_snoc (left : ℕ) (cmds : List Command) (cmd : Command) :
    sentPairs left (cmds ++ [cmd]) =
      sentPairs left cmds ++ pairsOf (batch (left - (sentPairs left cmds).length)) cmd.data := by
  induction cmds generalizing left with
  | nil => simp [sentPairs]
  | cons c cmds ih =>
    simp only [List.cons_append, sentPairs, ih, List.length_append, pairsOf_length,
      List.append_assoc, Nat.sub_sub]

/-- What `handle_transfer_pairs` splits off. -/
theorem takePairs_eq (tx : SignTransferWithScheduleContext) :
    takePairs tx = { tx with
      scheduledAmountsInCurrentPacket := batch tx.remainingNumberOfScheduledAmounts
      remainingNumberOfScheduledAmounts :=
        tx.remainingNumberOfScheduledAmounts - batch tx.remainingNumberOfScheduledAmounts
      pos := 0 } := by
  unfold takePairs batch
  split_ifs with h
  · rw [Nat.min_eq_left h, Nat.sub_self]
  · rw [Nat.min_eq_right (by omega)]

section Reviews
variable [Platform] {s t w : World} {Q : Unit → World → Prop} {E : Exception → World → Prop}

/-! ## Reviews -/

/-- The rows show the release of a pair: its time and its amount. -/
def ReleaseShown (pair : Bytes) (rows : List Row) : Prop :=
  ∃ amount, amountText (beNat (pair.drop 8)) = some amount ∧
    rows = [row "Release time (UTC)" (utcText (beNat (pair.take 8))), row "Amount" amount]

/-- The screen that shows a release, with the way to sign on the last one. -/
def releaseScreen (last : Bool) (rows : List Row) : List Row :=
  match Platform.backend, last with
  | .nbgl, false =>
    line "Review Scheduled release" "" :: rows ++ [⟨ascii "Show next release", []⟩]
  | .nbgl, true =>
    line "Review Scheduled release" "" :: rows ++ [⟨ascii "Sign transaction", []⟩]
  | .bagl, false => rows ++ [line "Show" "next release"]
  | .bagl, true => rows

/-- The screen shows a pair and nothing else. -/
def PairScreen (last : Bool) (pair : Bytes) (screen : List Row) : Prop :=
  ∃ rows, ReleaseShown pair rows ∧ screen = releaseScreen last rows

/-- Each pair has had a screen of its own, in order, behind the first review. -/
def AcceptedPairs (intro : List Row) (pairs : List Bytes) (w : World) : Prop :=
  ∃ screens, List.Forall₂ (PairScreen false) pairs screens ∧
    accepted w.log = intro ++ screens.flatten

theorem AcceptedPairs.of_eq {intro : List Row} {pairs : List Bytes}
    (h : AcceptedPairs intro pairs s)
    (heq : Concordium.accepted t.log = Concordium.accepted s.log) :
    AcceptedPairs intro pairs t := by
  obtain ⟨screens, hscreens, hacc⟩ := h
  exact ⟨screens, hscreens, heq.trans hacc⟩

theorem AcceptedPairs.snoc {intro : List Row} {pairs : List Bytes} {pair : Bytes}
    {screen : List Row} (h : AcceptedPairs intro pairs s) (hscreen : PairScreen false pair screen)
    (heq : Concordium.accepted t.log = Concordium.accepted s.log ++ screen) :
    AcceptedPairs intro (pairs ++ [pair]) t := by
  obtain ⟨screens, hscreens, hacc⟩ := h
  refine ⟨screens ++ [screen], List.rel_append hscreens (.cons hscreen .nil), ?_⟩
  rw [heq, hacc, List.flatten_append, List.append_assoc, List.flatten_singleton]

/-- The context of the flow. -/
def World.schedule (w : World) : SignTransferWithScheduleContext :=
  (w.global.view (WithDataBlob SignTransferWithScheduleContext)).tx

/-! ## The flow of the pairs -/

/-- The pairs have been hashed as far as `pairs`; `pending` are those of the
    current packet that are still to come. -/
structure Releases (head : Bytes) (n : ℕ) (pairs pending : List Bytes) (w : World) : Prop where
  state : w.schedule.state = .transferPairs
  hashed : w.txState.hash = head ++ pairs.flatten
  inPacket : w.schedule.scheduledAmountsInCurrentPacket = pending.length
  buffered : pairsOf pending.length (w.schedule.buffer.bytes.drop w.schedule.pos) = pending
  fits : pending ≠ [] → w.schedule.pos + 16 * pending.length ≤ 240
  count : pairs.length + pending.length + w.schedule.remainingNumberOfScheduledAmounts = n

/-- Between packets, all the pairs that have arrived are accepted. -/
structure ReleasesBetween (head : Bytes) (n : ℕ) (intro : List Row) (pairs : List Bytes)
    (w : World) : Prop where
  releases : Releases head n pairs [] w
  more : pairs.length < n ∨ n = 0
  accepted : AcceptedPairs intro pairs w

/-- A pair that is not the last is on screen, where nothing can be signed. -/
structure PairReviewing (head : Bytes) (n : ℕ) (intro : List Row) (pairs : List Bytes)
    (pair : Bytes) (pending : List Bytes) (w : World) : Prop where
  releases : Releases head n (pairs ++ [pair]) pending w
  more : (pairs ++ [pair]).length < n
  accepted : AcceptedPairs intro pairs w
  actions : ∀ c ∈ w.screen.actions,
    c = .processNextScheduledAmountContinue ∨ c = .sendUserRejection
  shown : PairScreen false pair w.screen.rows
  screen : onScreen w.log = w.screen.rows

/-- The last pair is on screen, with the way to sign. -/
structure LastPairReviewing (head : Bytes) (n : ℕ) (intro : List Row) (pairs : List Bytes)
    (pair : Bytes) (w : World) : Prop where
  releases : Releases head n (pairs ++ [pair]) [] w
  complete : (pairs ++ [pair]).length = n
  accepted : AcceptedPairs intro pairs w
  actions : w.screen.actions = signFlowShared
  shown : PairScreen true pair w.screen.rows

/-- What the next pair leads to. -/
structure NextPair (head : Bytes) (n : ℕ) (intro : List Row) (pairs pending : List Bytes)
    (s t : World) : Prop where
  latch : t.latch = s.latch
  packet : pending = [] → t.replyPending = false ∧ ReleasesBetween head n intro pairs t
  next : ∀ pair rest, pending = pair :: rest → t.replyPending = s.replyPending ∧
    (PairReviewing head n intro pairs pair rest t ∨
      rest = [] ∧ LastPairReviewing head n intro pairs pair t)

/-- The review of a pair, with and without the way to sign. -/
theorem wp_pairScreen (last : Bool) (rows : List Row) (hrows : pairRows s.schedule = rows)
    (h : ∀ actions, (if last then actions = signFlowShared else
        ∀ c ∈ actions, c = .processNextScheduledAmountContinue ∨ c = .sendUserRejection) →
      Q () { s with
        screen := s.screenOf (releaseScreen last rows) actions
        log := s.log ++ [.drawn (s.screenOf (releaseScreen last rows) actions)] }) :
    wp (if last then uiSignScheduledTransferPairFlowSignDisplay
      else uiSignScheduledTransferPairFlowDisplay) Q E s := by
  subst hrows
  unfold uiSignScheduledTransferPairFlowSignDisplay uiSignScheduledTransferPairFlowDisplay
  unfold releaseScreen World.schedule at h
  cases last <;> simp only [Bool.false_eq_true, if_true, if_false, wp_bind, wp_getCtx] at h ⊢ <;>
    cases hb : (Platform.backend : Backend) <;>
    simp only [hb, nbglSignReview, nbglReview, wp_showScreen] at h ⊢
  · exact h _ (by simp)
  · exact h _ (by simp)
  · exact h _ rfl
  · exact h _ rfl

/-! ## The next pair -/

/-- The next pair of the packet. -/
def SignTransferWithScheduleContext.nextPair (tx : SignTransferWithScheduleContext) : Bytes :=
  (tx.buffer.bytes.drop tx.pos).take 16

/-- The pair is hashed, and its texts are prepared. -/
theorem wp_readScheduledAmount_pair (tx : SignTransferWithScheduleContext)
    {Q : SignTransferWithScheduleContext → World → Prop} (hpos : tx.pos + 16 ≤ 240)
    (h : ∀ tx' t, HashedOnto tx.nextPair s t → ReleaseShown tx.nextPair (pairRows tx') →
      tx'.state = tx.state → tx'.buffer = tx.buffer → tx'.pos = tx.pos + 16 →
      tx'.scheduledAmountsInCurrentPacket = tx.scheduledAmountsInCurrentPacket - 1 →
      tx'.remainingNumberOfScheduledAmounts = tx.remainingNumberOfScheduledAmounts → Q tx' t) :
    wp (readScheduledAmount tx) Q (fun _ _ => True) s := by
  have hbuffer : tx.buffer.bytes.length = 255 := tx.buffer.size
  have hlength : ((tx.buffer.bytes.drop tx.pos).take 8).length = 8 := by
    rw [List.length_take, List.length_drop]
    omega
  have hlt : beNat ((tx.buffer.bytes.drop tx.pos).take 8) < 2 ^ 64 := by
    have := beNat_lt ((tx.buffer.bytes.drop tx.pos).take 8)
    rwa [hlength] at this
  have htime : tx.nextPair.take 8 = (tx.buffer.bytes.drop tx.pos).take 8 := by
    rw [SignTransferWithScheduleContext.nextPair, List.take_take]
    rfl
  have hamount : tx.nextPair.drop 8 = (tx.buffer.bytes.drop (tx.pos + 8)).take 8 := by
    rw [SignTransferWithScheduleContext.nextPair, List.drop_take, List.drop_drop]
  unfold readScheduledAmount
  rw [wp_bind, wp_throwIf]
  refine ⟨fun _ => trivial, fun _ => ?_⟩
  rw [wp_bind, wp_u8be]
  refine ⟨fun _ => ?_, fun _ => trivial⟩
  rw [wp_bind, wp_slice]
  refine ⟨fun _ => ?_, fun _ => trivial⟩
  rw [wp_bind]
  refine wp_updateHash_onto fun t ht => ?_
  rw [wp_bind]
  refine wp_mono ?_ (fun _ _ _ => trivial) (timestampText_spec hlt tx.displayTimestamp t)
  rintro ⟨time, display⟩ _ ⟨rfl, -, hshown⟩
  dsimp only
  rw [wp_bind, wp_throwIf]
  refine ⟨fun _ => trivial, fun _ => ?_⟩
  rw [wp_bind, wp_u8be]
  refine ⟨fun _ => ?_, fun _ => trivial⟩
  rw [wp_bind, wp_slice]
  refine ⟨fun _ => ?_, fun _ => trivial⟩
  rw [wp_bind]
  refine wp_updateHash_onto fun u hu => ?_
  rw [← bind_assoc, wp_bind]
  refine wp_amountToCcdDisplay le_rfl (fun _ => trivial) fun displayAmount htext => ?_
  rw [wp_pure]
  refine h _ u ?_ ⟨displayAmount.text, ?_, ?_⟩ rfl rfl rfl rfl rfl
  · have hpair := ht.trans hu
    rwa [← htime, ← hamount, List.take_append_drop] at hpair
  · rw [hamount, htext]
  · rw [htime, ← hshown.text]
    rfl

/-- `processNextScheduledAmount`: the next pair of the packet comes on screen, or
    the packet is acknowledged. -/
theorem wp_processNextScheduledAmount {head : Bytes} {n : ℕ} {intro : List Row}
    {pairs pending : List Bytes} (h : Releases head n pairs pending s)
    (hacc : AcceptedPairs intro pairs s) (hmore : pending = [] → pairs.length < n ∨ n = 0) :
    wp processNextScheduledAmount (fun _ t => NextPair head n intro pairs pending s t)
      (fun _ _ => True) s := by
  have hcount := h.count
  have hpacket := h.inPacket
  have hbuffered := h.buffered
  unfold processNextScheduledAmount
  rw [wp_bind, wp_getCtx]
  change wp (if s.schedule.scheduledAmountsInCurrentPacket = 0 then _ else _) _ _ _
  cases pending with
  | nil =>
    refine wp_if (fun _ => ?_) fun hne => absurd hpacket hne
    change wp (ioSendResponse [] swoSuccess) _ _ _
    rw [wp_ioSendResponse]
    refine ⟨rfl, fun _ => ⟨rfl, ⟨h.state, h.hashed, h.inPacket, h.buffered, h.fits, h.count⟩,
      hmore rfl, hacc.of_eq (by simp [Event.accepts])⟩,
      fun _ _ hno => absurd hno.symm (List.cons_ne_nil _ _)⟩
  | cons pair rest =>
    have hfits := h.fits (List.cons_ne_nil _ _)
    rw [List.length_cons] at hpacket hbuffered hfits hcount
    obtain ⟨hpair, hrest⟩ := List.cons.inj hbuffered
    refine wp_if (fun hzero => absurd (hzero.symm.trans hpacket) (by simp)) fun _ => ?_
    rw [wp_bind]
    refine wp_readScheduledAmount_pair s.schedule (by omega)
      fun tx' t ht hrows hstate hbuffer hpos hin hleft => ?_
    rw [show s.schedule.nextPair = pair from hpair] at ht hrows
    rw [wp_bind, wp_setCtx]
    have releases {u : World} (hg : u.schedule = tx') (hhash : u.txState = t.txState) :
        Releases head n (pairs ++ [pair]) rest u := by
      refine ⟨?_, ?_, ?_, ?_, ?_, ?_⟩
      · rw [hg, hstate, h.state]
      · rw [hhash, ht.hash, h.hashed, List.flatten_append, List.flatten_singleton,
          List.append_assoc]
      · rw [hg, hin, hpacket, Nat.add_sub_cancel]
      · rw [hg, hbuffer, hpos, ← List.drop_drop]
        exact hrest
      · intro _
        rw [hg, hpos]
        omega
      · rw [hg, hleft, List.length_append, List.length_singleton]
        omega
    have hschedule (screen : Screen) (log : List Event) : World.schedule { t with
        global := Member.inject ({ s.global.view (WithDataBlob SignTransferWithScheduleContext) with
          tx := tx' } : WithDataBlob SignTransferWithScheduleContext),
        screen := screen, log := log } = tx' :=
      congrArg WithDataBlob.tx (InstructionContext.view_inject _)
    have haccepted (screen : Screen) :
        Concordium.accepted (t.log ++ [.drawn screen]) = Concordium.accepted s.log := by
      simp [Event.accepts, ht.accepted]
    by_cases hlast : tx'.remainingNumberOfScheduledAmounts = 0 ∧
        tx'.scheduledAmountsInCurrentPacket = 0
    · rw [if_pos hlast]
      refine wp_pairScreen true (pairRows tx') ?_ fun actions hactions => ?_
      · exact congrArg pairRows (hschedule t.screen t.log)
      · have hnil : rest = [] := by
          refine List.eq_nil_of_length_eq_zero ?_
          omega
        refine ⟨ht.latch, fun hno => absurd hno (List.cons_ne_nil _ _), fun pair' rest' heq => ?_⟩
        cases heq
        subst hnil
        refine ⟨ht.reply, .inr ⟨rfl, releases (hschedule _ _) rfl, ?_, ?_, hactions,
          ⟨_, hrows, rfl⟩⟩⟩
        · rw [List.length_append, List.length_singleton]
          simp only [List.length_nil] at hcount
          omega
        · exact hacc.of_eq (haccepted _)
    · rw [if_neg hlast]
      refine wp_pairScreen false (pairRows tx') ?_ fun actions hactions => ?_
      · exact congrArg pairRows (hschedule t.screen t.log)
      · refine ⟨ht.latch, fun hno => absurd hno (List.cons_ne_nil _ _), fun pair' rest' heq => ?_⟩
        cases heq
        refine ⟨ht.reply, .inl ⟨releases (hschedule _ _) rfl, ?_, ?_, hactions,
          ⟨_, hrows, rfl⟩, ?_⟩⟩
        · rw [List.length_append, List.length_singleton]
          omega
        · exact hacc.of_eq (haccepted _)
        · simp [Event.accepts, World.screenOf]

/-- A packet of pairs: those that are missing, but at most 15. -/
theorem wp_handleTransferPairs {cdata head : Bytes} {n : ℕ} {intro : List Row}
    {pairs : List Bytes} (h : ReleasesBetween head n intro pairs s)
    (hQ : ∀ t, 16 * batch (n - pairs.length) ≤ cdata.length →
      NextPair head n intro pairs (pairsOf (batch (n - pairs.length)) cdata) s t → Q () t) :
    wp (handleTransferPairs cdata) Q (fun _ _ => True) s := by
  have hleft : s.schedule.remainingNumberOfScheduledAmounts = n - pairs.length := by
    have hcount := h.releases.count
    rw [List.length_nil] at hcount
    omega
  have hbatch : batch (n - pairs.length) ≤ n - pairs.length := Nat.min_le_left _ _
  have hbatch' : batch (n - pairs.length) ≤ 15 := Nat.min_le_right _ _
  have htake := takePairs_eq s.schedule
  rw [hleft] at htake
  unfold World.schedule at htake
  unfold handleTransferPairs
  rw [wp_bind, wp_getCtx]
  dsimp only
  rw [htake, wp_bind, wp_throwIf]
  dsimp only
  refine ⟨fun _ => trivial, fun hsize => ?_⟩
  have hlong : 16 * batch (n - pairs.length) ≤ cdata.length := by omega
  rw [wp_bind, wp_memmove]
  refine ⟨fun hw => ?_, fun _ => trivial⟩
  rw [wp_bind, wp_setCtx]
  have releases {u : World} (hg : u.schedule = { s.schedule with
        scheduledAmountsInCurrentPacket := batch (n - pairs.length)
        remainingNumberOfScheduledAmounts := n - pairs.length - batch (n - pairs.length)
        pos := 0
        buffer := s.schedule.buffer.write 0 (cdata.take (batch (n - pairs.length) * 16)) hw })
      (hhash : u.txState = s.txState) :
      Releases head n pairs (pairsOf (batch (n - pairs.length)) cdata) u := by
    refine ⟨?_, ?_, ?_, ?_, ?_, ?_⟩
    · rw [hg]
      exact h.releases.state
    · rw [hhash]
      exact h.releases.hashed
    · rw [hg, pairsOf_length]
    · rw [hg, pairsOf_length]
      refine pairsOf_congr ?_
      rw [List.drop_zero, Buf.write_bytes, List.take_zero, List.nil_append, Nat.mul_comm 16,
        List.take_append_of_le_length (by rw [List.length_take]; omega), List.take_take,
        Nat.min_self]
    · intro _
      rw [hg, pairsOf_length]
      dsimp only
      omega
    · rw [hg, pairsOf_length]
      have hcount := h.releases.count
      rw [List.length_nil] at hcount
      dsimp only
      omega
  exact wp_mono (fun _ t ht => hQ t hlong ⟨ht.latch, ht.packet, ht.next⟩) (fun _ _ h => h)
    (wp_processNextScheduledAmount
      (releases (congrArg WithDataBlob.tx (InstructionContext.view_inject _)) rfl)
      (h.accepted.of_eq rfl) fun _ => h.more)

end Reviews

end Concordium
