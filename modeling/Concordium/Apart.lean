/-
  The programs that leave the trusted name alone.

  Only GET_CHALLENGE, SET_TRUSTED_NAME and VERIFY_ADDRESS touch the stored
  challenge and the stored descriptor.  Every other instruction and every
  callback keeps both.
-/
import Concordium.Programs

namespace Concordium

open Buffer Wp

set_option synthInstance.maxSize 1000000
set_option synthInstance.maxHeartbeats 100000

/-- The events of the challenge and the stored descriptor. -/
def Event.isTrust : Event → Bool
  | .challengeIssued _ | .trustedNameSet _ | .trustedNameRefused => true
  | _ => false

/-- The challenge and the stored descriptor are as before. -/
structure Apart (s t : World) : Prop where
  trusted : t.trusted = s.trusted
  storedChallenge : t.storedChallenge = s.storedChallenge
  log : ∃ events, t.log = s.log ++ events ∧ ∀ e ∈ events, e.isTrust = false

instance : IsPreorder World Apart where
  refl _ := ⟨rfl, rfl, [], by simp⟩
  trans := by
    rintro s t u ⟨ht, hc, es, hlog, hes⟩ ⟨ht', hc', es', hlog', hes'⟩
    refine ⟨ht'.trans ht, hc'.trans hc, es ++ es', by rw [hlog', hlog]; simp, fun e he => ?_⟩
    rcases List.mem_append.mp he with he | he
    · exact hes e he
    · exact hes' e he

theorem Event.isTrust_of_isFlow {e : Event} (h : e.isFlow) : e.isTrust = false := by
  cases e <;> simp_all [Event.isFlow, Event.isTrust]

theorem Inner.apart {s t : World} (h : Inner s t) : Apart s t := by
  obtain ⟨ho, es, hlog, hes⟩ := h
  exact ⟨ho.trusted, ho.storedChallenge, es, hlog,
    fun e he => Event.isTrust_of_isFlow (hes e he)⟩

variable [Platform]

/-- No primitive has the power to change them. -/
theorem Primitive.frames_apart {p : Power} {α : Type} {x : App α} (h : Primitive p x)
    (hp : Power.flow.ctorIdx < p.ctorIdx) : Frames Apart x := by
  constructor
  intro s
  cases h with
  | transactionHash | publicKeyReviewPending | reviewedPath =>
    exact ⟨rfl, rfl, [], by simp, by simp⟩
  | signed => exact ⟨rfl, rfl, _, rfl, by simp [Event.isTrust]⟩
  | releaseInstruction => exact ⟨rfl, rfl, [.released], rfl, by simp [Event.isTrust]⟩
  | showScreen rows actions =>
    exact ⟨rfl, rfl, [.drawn (s.screenOf rows actions)], rfl, by simp [Event.isTrust]⟩
  | sendRejection sw =>
    rw [wp_sendRejection]
    exact ⟨rfl, rfl, [.released, .reply [] sw], rfl, by simp [Event.isTrust]⟩
  | endFlow sw =>
    rw [wp_endFlow]
    exact ⟨rfl, rfl, [.released, .reply [] sw], rfl, by simp [Event.isTrust]⟩
  | uiMenuMain =>
    rw [wp_uiMenuMain]
    exact ⟨rfl, rfl, _, s.toMenu_log, by simp [Event.isTrust]⟩
  | sendUserRejection =>
    rw [wp_sendUserRejection]
    exact ⟨rfl, rfl, [.reply [] swoConditionsNotSatisfied, .released,
      .drawn (idleScreen s.txState.hash)], by simp [World.answered], by simp [Event.isTrust]⟩
  | sendSuccess data =>
    rw [wp_sendSuccess]
    exact ⟨rfl, rfl, [.reply data swoSuccess, .released, .drawn (idleScreen s.txState.hash)],
      by simp [World.answered], by simp [Event.isTrust]⟩
  | acknowledge data => exact ⟨rfl, rfl, [.reply data swoSuccess], rfl, by simp [Event.isTrust]⟩
  | ioSendResponse data sw => exact ⟨rfl, rfl, [.reply data sw], rfl, by simp [Event.isTrust]⟩
  | _ => exact absurd hp (by decide)

theorem Built.apart {α : Type} {x : App α} (h : Built .replies x) : Frames Apart x :=
  h.frames_family (R := Apart) (fun _ _ => Inner.apart) (fun _ _ h => h) (fun _ _ h => h)
    (fun _ _ hx => hx.frames_apart (by decide)) (fun _ _ hx => hx.frames_apart (by decide))
    fun _ _ hx => hx.frames_apart (by decide)

instance (priority := low) {α : Type} {x : App α} [h : Built .replies x] : Frames Apart x :=
  h.apart

/-! ## Steps -/

instance {ins : UInt8} : Frames Apart (record (.packet ins)) where
  frames s := by rw [wp_record]; exact ⟨rfl, rfl, [.packet ins], rfl, by simp [Event.isTrust]⟩

instance {c : Callback} : Frames Apart (record (.activated c)) where
  frames s := by rw [wp_record]; exact ⟨rfl, rfl, [.activated c], rfl, by simp [Event.isTrust]⟩

instance : Frames Apart deliver where
  frames s := by
    simp only [deliver, wp_bind, wp_modify, wp_record]
    exact ⟨rfl, rfl, [.delivered], rfl, by simp [Event.isTrust]⟩

instance {ins : UInt8} : Frames Apart (claimInstruction ins) where
  frames s := by
    simp only [claimInstruction, wp_bind, wp_zeroGlobal, wp_modify, wp_record]
    exact ⟨rfl, rfl, [.claimed ins], rfl, by simp [Event.isTrust]⟩

instance : Frames Apart
    (modify fun w : World => { w with screen := { w.screen with actions := [] } } : App PUnit) where
  frames _ := ⟨rfl, rfl, [], by simp, by simp⟩

instance {c : Callback} : Frames Apart (runCallback c) :=
  (built_replies (p := c.power) inferInstance).apart

instance {c : Callback} : Frames Apart (activate c) := by
  unfold activate
  cases (Platform.backend : Backend) <;> infer_instance

theorem apart_dispatchInstruction {cmd : Command} {isInitialCall : Bool}
    (hins : cmd.ins ∉ trustInstructions) :
    Frames Apart (dispatchInstruction cmd isInitialCall) :=
  (built_dispatchInstruction hins).apart

end Concordium
