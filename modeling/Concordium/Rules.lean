/-
  Rules for the programs every handler is built from.

  Each says what one primitive returns and writes, so that a handler can be
  taken apart bind by bind.
-/
import Concordium.App

namespace Concordium

open Buffer Union Wp

variable {α : Type} {s : World} {E : Exception → World → Prop}

/-! ## Guards -/

@[simp] theorem wp_throwIf {c : Prop} [Decidable c] {sw : UInt16} {Q : Unit → World → Prop} :
    wp (throwIf c sw) Q E s ↔ (c → E (.statusWord sw) s) ∧ (¬ c → Q () s) := by
  unfold throwIf; rw [wp_ite]; simp

@[simp] theorem wp_assertInBounds {c : Prop} [Decidable c] {Q : Unit → World → Prop} :
    wp (assertInBounds c) Q E s ↔ (c → Q () s) ∧ (¬ c → E .fault s) := by
  unfold assertInBounds; rw [wp_ite]; simp

theorem wp_catching {x : App α} {recover : UInt16 → App α} {Q : α → World → Prop} :
    wp (catching x recover) Q E s ↔
      wp x Q (fun e t => (∀ sw, e = .statusWord sw → wp (recover sw) Q E t) ∧
        (e = .fault → E .fault t)) s := by
  simp only [wp, catching]
  rcases x s with ⟨a, t⟩ | ⟨_ | _, t⟩ <;> simp

/-! ## Bounded access -/

@[simp] theorem wp_slice {bs : Bytes} {off k : ℕ} {Q : Bytes → World → Prop} :
    wp (slice bs off k) Q E s ↔
      (off + k ≤ bs.length → Q ((bs.drop off).take k) s) ∧
        (¬ off + k ≤ bs.length → E .fault s) := by
  simp [slice]

@[simp] theorem wp_u8 {bs : Bytes} {off : ℕ} {Q : UInt8 → World → Prop} :
    wp (u8 bs off) Q E s ↔
      (off < bs.length → Q (bs.getD off 0) s) ∧ (¬ off < bs.length → E .fault s) := by
  simp [u8]

@[simp] theorem wp_u2be {bs : Bytes} {off : ℕ} {Q : ℕ → World → Prop} :
    wp (u2be bs off) Q E s ↔
      (off + 2 ≤ bs.length → Q (beNat ((bs.drop off).take 2)) s) ∧
        (¬ off + 2 ≤ bs.length → E .fault s) := by
  simp [u2be]

@[simp] theorem wp_u4be {bs : Bytes} {off : ℕ} {Q : ℕ → World → Prop} :
    wp (u4be bs off) Q E s ↔
      (off + 4 ≤ bs.length → Q (beNat ((bs.drop off).take 4)) s) ∧
        (¬ off + 4 ≤ bs.length → E .fault s) := by
  simp [u4be]

@[simp] theorem wp_u8be {bs : Bytes} {off : ℕ} {Q : ℕ → World → Prop} :
    wp (u8be bs off) Q E s ↔
      (off + 8 ≤ bs.length → Q (beNat ((bs.drop off).take 8)) s) ∧
        (¬ off + 8 ≤ bs.length → E .fault s) := by
  simp [u8be]

@[simp] theorem wp_advance {bs : Bytes} {k : ℕ} {Q : Bytes → World → Prop} :
    wp (advance bs k) Q E s ↔
      (k ≤ bs.length → Q (bs.drop k) s) ∧ (¬ k ≤ bs.length → E .fault s) := by
  simp [advance]

@[simp] theorem wp_checkedSub {a b : ℕ} {Q : ℕ → World → Prop} :
    wp (checkedSub a b) Q E s ↔ (b ≤ a → Q (a - b) s) ∧ (¬ b ≤ a → E .fault s) := by
  simp [checkedSub]

@[simp] theorem wp_memmove {n : ℕ} {dst : Buf n} {off : ℕ} {bs : Bytes}
    {Q : Buf n → World → Prop} :
    wp (memmove dst off bs) Q E s ↔
      (∀ h : off + bs.length ≤ n, Q (dst.write off bs h) s) ∧
        (¬ off + bs.length ≤ n → E .fault s) := by
  unfold memmove; rw [wp_dite]; simp

/-! ## State -/

@[simp] theorem wp_record {e : Event} {Q : Unit → World → Prop} :
    wp (record e) Q E s = Q () { s with log := s.log ++ [e] } := rfl

@[simp] theorem wp_zeroGlobal {Q : Unit → World → Prop} :
    wp zeroGlobal Q E s = Q () { s with global := .zeroed } := rfl

@[simp] theorem wp_updateHash {bs : Bytes} {Q : Unit → World → Prop} :
    wp (updateHash bs) Q E s = Q () { s with
      txState := { s.txState with hash := s.txState.hash ++ bs },
      log := s.log ++ [.hashUpdate bs] } := rfl

@[simp] theorem wp_sha256Init {Q : Unit → World → Prop} :
    wp sha256Init Q E s = Q () { s with
      txState := { s.txState with hash := [] }, log := s.log ++ [.hashInit] } := rfl

@[simp] theorem wp_setDerivationPath {dp : DerivationPath} {Q : Unit → World → Prop} :
    wp (setDerivationPath dp) Q E s =
      Q () { s with derivationPath := dp, log := s.log ++ [.path dp] } := rfl

@[simp] theorem wp_releaseInstruction {Q : Unit → World → Prop} :
    wp releaseInstruction Q E s = Q () { s with
      txState := { s.txState with currentInstruction := none },
      log := s.log ++ [.released] } := rfl

@[simp] theorem wp_ioSendResponse {data : Bytes} {sw : UInt16} {Q : Unit → World → Prop} :
    wp (ioSendResponse data sw) Q E s =
      Q () { s with replyPending := false, log := s.log ++ [.reply data sw] } := rfl

/-- The screen that `showScreen` starts in state `s`. -/
def World.screenOf (s : World) (rows : List Row) (actions : List Callback) : Screen :=
  ⟨rows, actions, s.txState.currentInstruction, s.txState.hash⟩

@[simp] theorem wp_showScreen {rows : List Row} {actions : List Callback}
    {Q : Unit → World → Prop} :
    wp (showScreen rows actions) Q E s = Q () { s with
      screen := s.screenOf rows actions, log := s.log ++ [.drawn (s.screenOf rows actions)] } :=
  rfl

/-! ## The idle screen -/

section Menu
variable [Platform]

/-- The idle screen over a hash. -/
def idleScreen (hash : Bytes) : Screen := ⟨[], menuActions, none, hash⟩

/-- Where a reply leads to. -/
def World.answered (s : World) (data : Bytes) (sw : UInt16) : World :=
  { s with replyPending := false, log := s.log ++ [.reply data sw] }

/-- Where `uiMenuMain` leads to. -/
def World.toMenu (s : World) : World :=
  { s with
    txState := { s.txState with currentInstruction := none }
    publicKeyReviewPending := false
    screen := idleScreen s.txState.hash
    log := s.log ++ [.released, .drawn (idleScreen s.txState.hash)] }

@[simp] theorem wp_uiMenuMain {Q : Unit → World → Prop} :
    wp uiMenuMain Q E s = Q () s.toMenu := by
  simp only [uiMenuMain, wp_bind, wp_releaseInstruction, wp_modify, wp_showScreen]
  simp [World.toMenu, World.screenOf, idleScreen]

@[simp] theorem wp_sendSuccess {data : Bytes} {Q : Unit → World → Prop} :
    wp (sendSuccess data) Q E s = Q () (s.answered data swoSuccess).toMenu := by
  simp only [sendSuccess, wp_bind, wp_ioSendResponse, wp_uiMenuMain, World.answered]

@[simp] theorem wp_sendUserRejection {Q : Unit → World → Prop} :
    wp sendUserRejection Q E s = Q () (s.answered [] swoConditionsNotSatisfied).toMenu := by
  simp only [sendUserRejection, sendUserRejectionNoIdle, ioSendSw, wp_bind, wp_ioSendResponse,
    wp_uiMenuMain, World.answered]

omit [Platform] in
@[simp] theorem wp_sendRejection {sw : UInt16} {Q : Unit → World → Prop} :
    wp (sendRejection sw) Q E s = Q () { s with
      replyPending := false
      txState := { s.txState with currentInstruction := none }
      log := s.log ++ [.released, .reply [] sw] } := by
  simp [sendRejection, ioSendSw]

omit [Platform] in
@[simp] theorem wp_endFlow {sw : UInt16} {Q : Unit → World → Prop} :
    wp (endFlow sw) Q E s = Q () { s with
      global := .zeroed
      replyPending := false
      txState := { s.txState with currentInstruction := none }
      log := s.log ++ [.released, .reply [] sw] } := by
  simp [endFlow, ioSendSw]

@[simp] theorem World.toMenu_latch : s.toMenu.txState.currentInstruction = none := rfl

@[simp] theorem World.toMenu_replyPending : s.toMenu.replyPending = s.replyPending := rfl

@[simp] theorem World.toMenu_log :
    s.toMenu.log = s.log ++ [.released, .drawn (idleScreen s.txState.hash)] := rfl

@[simp] theorem World.toMenu_actions : s.toMenu.screen.actions = menuActions := rfl

end Menu

section Context
variable [Platform] [Member InstructionContext α]

@[simp] theorem wp_getCtx {Q : α → World → Prop} :
    wp (getCtx α) Q E s = Q (s.global.view α) s := rfl

omit [Platform] in
@[simp] theorem wp_setCtx {c : α} {Q : Unit → World → Prop} :
    wp (setCtx c) Q E s = Q () { s with global := Member.inject c } := rfl

@[simp] theorem wp_modifyCtx {f : α → α} {Q : Unit → World → Prop} :
    wp (modifyCtx f) Q E s = Q () { s with global := Member.inject (f (s.global.view α)) } := rfl

end Context

/-! ## Commands -/

section Commands
variable [Platform]

/-- The latch is claimed for a first packet. -/
def World.claimed (s : World) (ins : UInt8) : World :=
  { s with
    global := .zeroed
    txState := { s.txState with currentInstruction := some ins }
    log := s.log ++ [.claimed ins] }

/-- A packet reaches the handler of its instruction. -/
def World.arrived (s : World) (ins : UInt8) : World := { s with log := s.log ++ [.packet ins] }

/-- The packet of another instruction is refused. -/
def World.switched (s : World) : World :=
  { s with
    txState := { s.txState with currentInstruction := none }
    replyPending := false
    log := s.log ++ [.released, .reply [] errorInvalidState] }

/-- A command starts an instruction, continues it, or is refused because another
    one is open. -/
theorem wp_runCommand {cmd : Command} {Q : Unit → World → Prop}
    (hfirst : s.txState.currentInstruction = none →
      wp (catching (dispatchInstruction cmd true) endFlow) Q E
        ((s.claimed cmd.ins).arrived cmd.ins))
    (hnext : s.txState.currentInstruction = some cmd.ins →
      wp (catching (dispatchInstruction cmd false) endFlow) Q E (s.arrived cmd.ins))
    (hother : ∀ ins, s.txState.currentInstruction = some ins → ins ≠ cmd.ins →
      Q () s.switched) :
    wp (runCommand cmd) Q E s := by
  unfold runCommand dispatchGuarded apduDispatcher
  rw [wp_bind, wp_get]
  refine wp_if (fun hnone => ?_) fun hsome => ?_
  · have h := hfirst hnone
    rw [wp_catching] at h
    rw [wp_bind]
    simp only [claimInstruction, wp_bind, wp_zeroGlobal, wp_modify, wp_record, wp_catching, wp_get]
    refine wp_if (fun hne => absurd rfl hne.2) fun _ => ?_
    rw [wp_bind, wp_record]
    exact h
  · obtain ⟨ins, hins⟩ := Option.ne_none_iff_exists'.mp hsome
    simp only [wp_catching, wp_bind, wp_get]
    refine wp_if (fun hne => ?_) fun heq => ?_
    · simp only [ioSendSw, wp_bind, wp_releaseInstruction, wp_ioSendResponse, List.append_assoc]
      exact hother ins hins fun h => hne.2 (hins.trans (congrArg some h))
    · have hsame : s.txState.currentInstruction = some cmd.ins := by
        by_contra hne
        exact heq ⟨hsome, hne⟩
      have h := hnext hsame
      rw [wp_catching] at h
      rw [wp_bind, wp_record]
      exact h

end Commands

end Concordium
