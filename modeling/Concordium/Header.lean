/-
  The transaction header and what the reviews show of it.

  Every account transaction starts with the same 60 bytes, of which the reviews
  show the sender and the energy.
-/
import Concordium.Safety
import Concordium.Texts

namespace Concordium

open Buffer Wp

/-- The part of a hashed payload that is neither nonce, payload size nor
    expiry. -/
def signedContent (payload : Bytes) : Bytes :=
  payload.take 32 ++ (payload.drop 40).take 8 ++ payload.drop 60

theorem signedContent_append {header rest : Bytes} (h : header.length = 60) :
    signedContent (header ++ rest) = header.take 32 ++ (header.drop 40).take 8 ++ rest := by
  unfold signedContent
  rw [List.take_append_of_le_length (by omega), List.drop_append_of_le_length (by omega),
    List.take_append_of_le_length (by simp [h]), List.drop_left' h]

section Header
variable [Platform] {s : World}

/-- The account rows show the header. -/
structure HeaderShown (account : AccountSender) (header : Bytes) : Prop where
  length : header.length = 60
  sender : AddressShown account.sender.text (header.take 32)
  energy : account.energyDisplay.text = decimal (beNat ((header.drop 40).take 8))

/-- Headers that are shown alike differ in nonce, payload size and expiry only. -/
theorem HeaderShown.unique (hx : ExactTexts) {account account' : AccountSender}
    {header header' : Bytes} (h : HeaderShown account header) (h' : HeaderShown account' header')
    (hsender : account.sender.text = account'.sender.text)
    (henergy : account.energyDisplay.text = account'.energyDisplay.text) :
    header.take 32 ++ (header.drop 40).take 8 = header'.take 32 ++ (header'.drop 40).take 8 := by
  have hsame : header.take 32 = header'.take 32 := h.sender.unique hx (hsender ▸ h'.sender)
  have hnumber : beNat ((header.drop 40).take 8) = beNat ((header'.drop 40).take 8) :=
    decimal_injective (h.energy.symm.trans (henergy.trans h'.energy))
  have hlen : ((header.drop 40).take 8).length = ((header'.drop 40).take 8).length := by
    simp [h.length, h'.length]
  rw [hsame, beNat_injective hlen hnumber]

omit [Platform] in
/-- The path in front of a transaction: one byte of depth and four bytes a
    node. -/
theorem wp_parseDerivationPath {cdata : Bytes} {Q : ℕ → World → Prop}
    {E : Exception → World → Prop} (hE : ∀ sw t, E (.statusWord sw) t)
    (h : ∀ dp log, 1 + (cdata.getD 0 0).toNat * 4 ≤ cdata.length →
      Q (1 + (cdata.getD 0 0).toNat * 4) { s with derivationPath := dp, log := log }) :
    wp (parseDerivationPath cdata) Q E s := by
  unfold parseDerivationPath parseDerivationPathFromBuffer
  simp only [wp_bind, wp_setDerivationPath, wp_throwIf, wp_u8, wp_pure, wp_record, hE,
    implies_true, true_and]
  intro hne
  refine ⟨fun _ _ hlen _ => h _ _ (not_lt.mp hlen), fun hempty => absurd ?_ hempty⟩
  omega

omit [Platform] in
theorem zero_not_mem_networkLabel (dp : DerivationPath) : 0 ∉ networkLabel dp := by
  unfold networkLabel
  split <;> decide

/-- From a sender buffer that ends an address, the account's is the text of the
    header's sender. -/
def SenderKept (before : AccountSender) (header : Bytes) (account : AccountSender) : Prop :=
  ExactTexts → EndsAddress before.sender →
    EndsAddress account.sender ∧ addressText (header.take 32) 57 = some account.sender.text

/-- The header is hashed with the kind, and prepared for the screen. -/
theorem wp_hashAccountTransactionHeaderAndKind {cdata : Bytes} {kind : UInt8}
    {Q : ℕ → World → Prop} {E : Exception → World → Prop} (hE : ∀ sw t, E (.statusWord sw) t)
    (hfault : ¬ ExactTexts → ∀ t, E .fault t)
    (h : ∀ account log, 61 ≤ cdata.length → HeaderShown account (cdata.take 60) →
      account.network.text = networkLabel s.derivationPath →
      SenderKept s.accountSender (cdata.take 60) account →
      Q 61 { s with
        accountSender := account
        txState := { s.txState with hash := s.txState.hash ++ (cdata.take 60 ++ [kind]) }
        log := log }) :
    wp (hashAccountTransactionHeaderAndKind cdata kind) Q E s := by
  unfold hashAccountTransactionHeaderAndKind hashHeaderAndType pathDisplayNetwork
  simp only [wp_bind, wp_throwIf, wp_get, wp_slice, hE, implies_true, true_and]
  intro hshort
  have h60 : 60 ≤ cdata.length := not_lt.mp hshort
  refine ⟨fun _ => ?_, fun hroom => absurd (show 0 + 32 ≤ cdata.length by omega) hroom⟩
  refine wp_base58Address (hE · _) (fun hno => hfault (hno.resolve_left (by decide)) _)
    fun sender hsender hkept => ?_
  simp only [wp_bind, wp_u8be]
  refine ⟨fun _ => ?_, fun hroom => absurd (show 40 + 8 ≤ cdata.length by omega) hroom⟩
  refine wp_binToDec (hE · _) fun hdigits => ?_
  simp only [wp_bind, wp_memmove, wp_get, wp_modify]
  refine ⟨fun henergy => ⟨fun hnetwork => ?_, fun hroom => absurd ?_ hroom⟩,
    fun hroom => absurd (by rw [Nat.zero_add]; exact hdigits) hroom⟩
  swap
  · unfold networkLabel
    cases s.derivationPath.network <;> decide
  simp only [wp_throwIf, wp_slice, wp_u8, wp_bind, wp_updateHash, wp_pure, hE, implies_true,
    true_and]
  intro hlong
  have hlen : 61 ≤ cdata.length := not_lt.mp hlong
  refine ⟨fun _ => ⟨fun _ hkind => ?_, fun hroom => absurd (show 60 < cdata.length by omega) hroom⟩,
    fun hroom => absurd (show 0 + 60 ≤ cdata.length by omega) hroom⟩
  have hshown : HeaderShown ⟨sender, (Buf.zero 21).write 0 _ henergy,
      (Buf.zero 24).write 0 _ hnetwork⟩ (cdata.take 60) := by
    refine ⟨by rw [List.length_take]; omega, ?_, ?_⟩
    · rw [List.take_take]
      exact hsender
    · rw [Buf.text_write henergy (zero_not_mem_decimal _), List.drop_take, List.take_take]
      rfl
  have hQ := h _ (s.log ++ [.hashUpdate (cdata.take 60)] ++ [.hashUpdate [kind]]) hlen hshown
    (text_write_zero hnetwork (zero_not_mem_networkLabel _)) fun hx hends => by
      rw [List.take_take]
      exact hkept hx hends
  rw [not_ne_iff.mp hkind]
  simpa [accountTransactionHeaderLength] using hQ

/-! ## Account reviews -/

/-- The rows of a review that starts with the account: on NBGL the review has a
    finishing title, and both libraries have a title of their own. -/
def accountReview (title baglTitle : Row) (item finish : String) (account : AccountSender)
    (body : List Row) : List Row :=
  match Platform.backend with
  | .nbgl => title :: (accountHeaderPairs account item ++ body) ++ [⟨ascii finish, []⟩]
  | .bagl => baglTitle :: accountHeaderPairs account "From" ++ body

/-- A review shows its account and its own rows. -/
theorem accountReview_injective {title baglTitle : Row} {item finish : String}
    {account account' : AccountSender} {body body' : List Row}
    (h : accountReview title baglTitle item finish account body =
      accountReview title baglTitle item finish account' body') :
    accountHeaderPairs account "" = accountHeaderPairs account' "" ∧ body = body' := by
  unfold accountReview accountHeaderPairs row at h
  unfold accountHeaderPairs row
  cases hb : (Platform.backend : Backend) <;> rw [hb] at h <;> simp at h ⊢ <;> tauto

theorem HeaderShown.unique_of_pairs (hx : ExactTexts) {account account' : AccountSender}
    {header header' : Bytes} (h : HeaderShown account header) (h' : HeaderShown account' header')
    (hpairs : accountHeaderPairs account "" = accountHeaderPairs account' "") :
    header.take 32 ++ (header.drop 40).take 8 = header'.take 32 ++ (header'.drop 40).take 8 := by
  simp only [accountHeaderPairs, row, List.cons.injEq, Row.mk.injEq, true_and] at hpairs
  exact h.unique hx h' hpairs.1 hpairs.2.1

omit [Platform] in
theorem append_inj_of_sorts {α : Type} {p : α → Bool} {as as' bs bs' : List α}
    (h : as ++ bs = as' ++ bs') (has : ∀ a ∈ as, p a) (has' : ∀ a ∈ as', p a)
    (hbs : ∀ b ∈ bs, ¬ p b) (hbs' : ∀ b ∈ bs', ¬ p b) : as = as' ∧ bs = bs' := by
  have front {as bs : List α} (has : ∀ a ∈ as, p a) (hbs : ∀ b ∈ bs, ¬ p b) :
      (as ++ bs).filter p = as := by
    rw [List.filter_append, List.filter_eq_self.mpr has, List.filter_eq_nil_iff.mpr hbs,
      List.append_nil]
  have heq : as = as' := by rw [← front has hbs, h, front has' hbs']
  exact ⟨heq, List.append_cancel_left (heq ▸ h)⟩

end Header

/-! ## Packets whose reply stays pending -/

section Steps
variable [Platform] {w w' : World} {cmd : Command}

/-- An APDU has arrived. -/
def World.delivered (w : World) : World :=
  { w with replyPending := true, log := w.log ++ [.delivered] }

/-- The state in which the handler of a command starts: on a fresh context, or
    in the flow that is open. -/
inductive Received (w : World) (cmd : Command) : Bool → World → Prop where
  | first (h : w.latch = none) :
      Received w cmd true ((w.delivered.claimed cmd.ins).arrived cmd.ins)
  | next (h : w.latch = some cmd.ins) : Received w cmd false (w.delivered.arrived cmd.ins)

omit [Platform] in
/-- The handler starts in one way only, and not when another instruction is
    open. -/
theorem Received.unique {b b' : Bool} {s s' : World} (h : Received w cmd b s)
    (h' : Received w cmd b' s') : b' = b ∧ s' = s := by
  cases h with
  | first hl =>
    cases h' with
    | first => exact ⟨rfl, rfl⟩
    | next hl' => exact absurd (hl.symm.trans hl') (Option.some_ne_none _).symm
  | next hl =>
    cases h' with
    | first hl' => exact absurd (hl'.symm.trans hl) (Option.some_ne_none _).symm
    | next => exact ⟨rfl, rfl⟩

omit [Platform] in
theorem Received.latch_eq {b : Bool} {s : World} (h : Received w cmd b s) {ins : UInt8}
    (hl : w.latch = some ins) : ins = cmd.ins := by
  cases h with
  | first hnone => exact absurd (hl.symm.trans hnone) (Option.some_ne_none _)
  | next hsome => exact Option.some.inj (hl.symm.trans hsome)

/-- An APDU is refused because another instruction is open, or its handler gets
    it. -/
theorem wp_apdu {Q : Unit → World → Prop} {E : Exception → World → Prop}
    (hswitched : ∀ ins, w.latch = some ins → ins ≠ cmd.ins → Q () w.delivered.switched)
    (hhandler : ∀ isInitialCall s, Received w cmd isInitialCall s →
      wp (catching (dispatchInstruction cmd isInitialCall) endFlow) Q E s) :
    wp (runInput (.apdu cmd)) Q E w := by
  simp only [runInput, deliver, wp_bind, wp_modify, wp_record]
  exact wp_runCommand (fun hnone => hhandler _ _ (.first hnone))
    (fun hsome => hhandler _ _ (.next hsome)) hswitched

/-- What a command leads to: its handler returns, or the latch is free and the
    reply is out. -/
theorem of_command_step {P : World → Prop} (hs : step w (.apdu cmd) = some w')
    (hfree : ∀ t, t.latch = none → t.replyPending = false → P t)
    (h : ∀ isInitialCall s, Received w cmd isInitialCall s →
      wp (dispatchInstruction cmd isInitialCall) (fun _ t => P t) (fun _ _ => True) s) : P w' := by
  refine of_step hs (wp_apdu (fun _ _ _ => hfree _ rfl rfl) fun isInitialCall s hr => ?_)
  rw [wp_catching]
  refine wp_mono (fun _ _ hP => hP) (fun _ _ _ => ⟨fun sw _ => ?_, fun _ => trivial⟩)
    (h isInitialCall s hr)
  rw [wp_endFlow]
  exact hfree _ rfl rfl

/-- A command that is still to be answered was taken up by its handler, which
    did not throw. -/
theorem of_pending_step {P : World → Prop} (hs : step w (.apdu cmd) = some w')
    (hp : w'.replyPending = true)
    (h : ∀ isInitialCall s, Received w cmd isInitialCall s →
      wp (dispatchInstruction cmd isInitialCall) (fun _ t => t.replyPending = true → P t)
        (fun _ _ => True) s) : P w' :=
  of_command_step (P := fun t => t.replyPending = true → P t) hs
    (fun _ _ hp hfalse => absurd (hp.symm.trans hfalse) Bool.false_ne_true) h hp

/-- An input that is enabled and does not throw is a step. -/
theorem step_of_wp {i : Input} {Q : World → Prop} (he : enabled w i = true)
    (h : wp (runInput i) (fun _ t => Q t) (fun _ _ => False) w) :
    ∃ v, step w i = some v ∧ Q v := by
  unfold step
  rw [if_pos he]
  unfold wp at h
  cases hr : runInput i w with
  | ok a v =>
    rw [hr] at h
    exact ⟨v, rfl, h⟩
  | error e v =>
    rw [hr] at h
    exact h.elim

theorem step_guarded {isInitialCall : Bool} {s : World} {Q : World → Prop}
    (hr : Received w cmd isInitialCall s) (hp : w.replyPending = false)
    (h : wp (catching (dispatchInstruction cmd isInitialCall) endFlow) (fun _ t => Q t)
      (fun _ _ => False) s) : ∃ v, step w (.apdu cmd) = some v ∧ Q v := by
  refine step_of_wp (by simp [enabled, hp])
    (wp_apdu (fun ins hins hne => absurd (hr.latch_eq hins) hne) fun b s' hr' => ?_)
  obtain ⟨rfl, rfl⟩ := hr.unique hr'
  exact h

theorem step_activate {c : Callback} {Q : World → Prop} (hc : c ∈ w.screen.actions)
    (h : wp (runCallback c) (fun _ t => Q t) (fun _ _ => False) (w.activated c)) :
    ∃ v, step w (.activate c) = some v ∧ Q v :=
  step_of_wp (by simpa [enabled] using hc) (wp_activate.mpr h)

/-- A command whose handler returns is a step. -/
theorem step_received {isInitialCall : Bool} {s : World} {Q : World → Prop}
    (hr : Received w cmd isInitialCall s) (hp : w.replyPending = false)
    (h : wp (dispatchInstruction cmd isInitialCall) (fun _ t => Q t) (fun _ _ => False) s) :
    ∃ v, step w (.apdu cmd) = some v ∧ Q v := by
  refine step_guarded hr hp ?_
  rw [wp_catching]
  exact wp_mono (fun _ _ hQ => hQ) (fun _ _ hE => hE.elim) h

theorem step_next {Q : World → Prop} (hl : w.latch = some cmd.ins) (hp : w.replyPending = false)
    (h : wp (dispatchInstruction cmd false) (fun _ t => Q t) (fun _ _ => False)
      (w.delivered.arrived cmd.ins)) : ∃ v, step w (.apdu cmd) = some v ∧ Q v :=
  step_received (.next hl) hp h

omit [Platform] in
theorem wp_withData {handler : App Unit} {P : World → Prop} {s : World}
    (h0 : cmd.data = [] → P (s.answered [] swoWrongDataLength))
    (h : cmd.data ≠ [] → wp handler (fun _ t => P t) (fun _ _ => True) s) :
    wp (withData cmd handler) (fun _ t => P t) (fun _ _ => True) s := by
  unfold withData
  refine wp_if (fun hlc => ?_) fun hlc => h fun h => hlc (List.length_eq_zero_iff.mpr h)
  rw [ioSendSw, wp_ioSendResponse]
  exact h0 (List.length_eq_zero_iff.mp hlc)

/-! ## The end of a review -/

/-- The last two steps of a review: either ends the instruction. -/
theorem wp_signFlowShared {c : Callback} (hc : c ∈ signFlowShared) {s : World} :
    wp (runCallback c) (fun _ t => t.latch = none) (fun _ _ => True) s := by
  simp only [signFlowShared, List.mem_cons, List.not_mem_nil, or_false] at hc
  rcases hc with rfl | rfl
  · change wp (uxRunGuarded buildAndSignTransactionHash) _ _ s
    unfold uxRunGuarded
    rw [wp_catching]
    have hsign : wp buildAndSignTransactionHash (fun _ t => t.latch = none)
        (fun _ _ => True) s := by
      unfold buildAndSignTransactionHash
      simp only [wp_bind, wp_get, wp_modify]
      refine wp_reads _ (fun signedHash _ => ?_) fun _ _ => trivial
      simp only [wp_bind, wp_record, wp_sendSuccess]
      rfl
    refine wp_mono (fun _ _ h => h) (fun _ _ _ => ⟨fun sw _ => ?_, fun _ => trivial⟩) hsign
    rw [wp_bind, wp_endFlow, wp_uiMenuMain]
    rfl
  · change wp sendUserRejection _ _ s
    rw [wp_sendUserRejection]
    rfl

end Steps

end Concordium
