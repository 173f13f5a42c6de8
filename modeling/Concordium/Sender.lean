/-
  The sender's buffer.

  Only the text of a header's sender is written to it, and the 50 characters of
  an address leave the byte behind them as it was.  In every run that byte
  stays zero, so that the row of the sender is that text and nothing else.
-/
import Concordium.Header
import Concordium.Programs
import Concordium.TrustRuns
import Mathlib.Logic.Basic

namespace Concordium

open Buffer Wp Runs

set_option synthInstance.maxSize 1000000
set_option synthInstance.maxHeartbeats 100000

/-- The sender's buffer ends an address. -/
def World.SenderEnds (w : World) : Prop := EndsAddress w.accountSender.sender

/-- A sender's buffer that ends an address still does. -/
def KeepsEnd (s t : World) : Prop := s.SenderEnds → t.SenderEnds

instance : IsPreorder World KeepsEnd where
  refl _ := id
  trans _ _ _ h h' := h' ∘ h

theorem keepsEnd_modify {f : World → World} (hf : ∀ s, (f s).accountSender = s.accountSender) :
    Frames KeepsEnd (modify f : App PUnit) := by
  refine ⟨fun s hs => ?_⟩
  rw [World.SenderEnds, hf s]
  exact hs

instance {e : Event} : Frames KeepsEnd (record e) := keepsEnd_modify fun _ => rfl

instance {bs : Bytes} : Frames KeepsEnd (updateHash bs) := ⟨fun _ => id⟩

instance {data : Bytes} {sw : UInt16} : Frames KeepsEnd (ioSendResponse data sw) := ⟨fun _ => id⟩

instance {sw : UInt16} : Frames KeepsEnd (ioSendSw sw) := by
  unfold ioSendSw; infer_instance

instance : Frames KeepsEnd releaseInstruction := ⟨fun _ => id⟩

section Programs
variable [Platform] [hx : Fact ExactTexts]

/-- Where the address of a header is the text of its sender, the byte behind it
    stays zero. -/
theorem header_keepsEnd (cdata : Bytes) (kind : UInt8) :
    Frames KeepsEnd (hashAccountTransactionHeaderAndKind cdata kind) := by
  have hset (account : AccountSender) (h : EndsAddress account.sender) :
      Frames KeepsEnd (modify fun w => { w with accountSender := account } : App PUnit) :=
    ⟨fun _ _ => h⟩
  have hread {α : Type} (x : App α) [Frames Eq x] {f : α → App ℕ} {s : World}
      (hf : ∀ a, wp (f a) (fun _ t => KeepsEnd s t) (fun _ t => KeepsEnd s t) s) :
      wp (x >>= f) (fun _ t => KeepsEnd s t) (fun _ t => KeepsEnd s t) s := by
    rw [wp_bind]
    refine wp_frames (R := Eq) x ?_ ?_
    · rintro a t rfl
      exact hf a
    · rintro e t rfl
      exact id
  refine ⟨fun s => ?_⟩
  by_cases hs : s.SenderEnds
  · unfold hashAccountTransactionHeaderAndKind
    refine hread _ fun _ => ?_
    rw [wp_bind, wp_get]
    refine hread _ fun address => ?_
    rw [wp_bind]
    have hbase : wp (base58Address address s.accountSender.sender)
        (fun sender t => EndsAddress sender ∧ s = t) (fun _ t => True ∧ s = t) s :=
      wp_and (wp_base58Address (fun _ => trivial) (fun _ => trivial)
        fun sender _ h => (h hx.out hs).1) (Frames.frames s)
    refine wp_mono ?_ ?_ hbase
    · rintro sender t ⟨hends, rfl⟩
      refine hread _ fun _ => hread _ fun _ => hread _ fun energy => ?_
      rw [wp_bind, wp_get]
      refine hread _ fun network => ?_
      have := hset ⟨sender, energy, network⟩ hends
      unfold hashHeaderAndType
      exact Frames.frames s
    · rintro _ t ⟨-, rfl⟩
      exact id
  · exact wp_iff.mpr ⟨fun _ _ _ h => absurd h hs, fun _ _ _ h => absurd h hs⟩

theorem Primitive.keepsEnd {p : Power} {α : Type} {x : App α} (h : Primitive p x) :
    Frames KeepsEnd x := by
  cases h with
  | header cdata kind => exact header_keepsEnd cdata kind
  | _ => exact ⟨fun _ => id⟩

instance (priority := low) {α : Type} {x : App α} [h : Built .replies x] : Frames KeepsEnd x :=
  h.frames (F := fun _ => KeepsEnd) (fun _ => inferInstance) (fun _ _ _ h => h)
    fun _ _ _ hx => hx.keepsEnd

/-! ## Handlers outside the primitives -/

theorem keepsEnd_trust : TrustFramed KeepsEnd where
  frees _ _ := inferInstance
  trusted _ := keepsEnd_modify fun _ => rfl
  set _ := inferInstance
  erase := keepsEnd_modify fun _ => rfl
  refuse _ := ⟨fun _ => id⟩
  challenge := ⟨fun _ => id⟩

instance {cmd : Command} : Frames KeepsEnd (handleSetTrustedName cmd) :=
  keepsEnd_trust.setTrustedName

instance : Frames KeepsEnd handleGetChallenge := keepsEnd_trust.challenge

instance {cmd : Command} : Frames KeepsEnd (handleVerifyAddress cmd) :=
  keepsEnd_trust.verifyAddress

/-! ## Steps -/

instance {cmd : Command} {isInitialCall : Bool} :
    Frames KeepsEnd (dispatchInstruction cmd isInitialCall) := by
  by_cases hins : cmd.ins ∈ trustInstructions
  · have hcases : cmd.ins = insVerifyAddress ∨ cmd.ins = insSetTrustedName ∨
        cmd.ins = insGetChallenge := by simpa [trustInstructions] using hins
    rcases hcases with hins | hins | hins
    · rw [dispatchInstruction_verifyAddress hins]; unfold withData; infer_instance
    · rw [dispatchInstruction_setTrustedName hins]; infer_instance
    · rw [dispatchInstruction_getChallenge hins]; unfold withoutData; infer_instance
  · have : Built .replies (dispatchInstruction cmd isInitialCall) := built_dispatchInstruction hins
    infer_instance

instance {i : Input} : Frames KeepsEnd (runInput i) := by
  have hdeliver : Frames KeepsEnd deliver := ⟨fun _ => id⟩
  cases i with
  | badLength | badClass => unfold runInput; infer_instance
  | apdu cmd =>
    have hclaim : Frames KeepsEnd (claimInstruction cmd.ins) := ⟨fun _ => id⟩
    unfold runInput runCommand dispatchGuarded apduDispatcher; infer_instance
  | activate c =>
    have hactions : Frames KeepsEnd (modify fun w : World =>
        { w with screen := { w.screen with actions := [] } } : App PUnit) :=
      keepsEnd_modify fun _ => rfl
    have hcallback : Frames KeepsEnd (runCallback c) := by
      have := built_replies (inferInstance : Built c.power (runCallback c))
      infer_instance
    unfold runInput activate
    cases (Platform.backend : Backend) <;> infer_instance

end Programs

/-- Every step keeps the end of the sender's buffer. -/
theorem senderEnds_step [Platform] (hx : ExactTexts) {w w' : World} {i : Input}
    (hs : step w i = some w') (h : w.SenderEnds) : w'.SenderEnds := by
  have := Fact.mk hx
  exact of_step hs (wp_frames (R := KeepsEnd) _ (fun _ _ ht => ht h) fun _ _ _ => trivial)

theorem senderEnds_start [Platform] : World.start.SenderEnds := rfl

end Concordium
