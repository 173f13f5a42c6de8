/-
  What no program can tell.

  No program looks at the screen or at the log.  Two states that differ in
  nothing else (`Hidden`) are taken alike by every packet of the host, and when
  the screens are the same as well, by every answer of the user.
-/
import Concordium.Device
import Concordium.Library.Relate
import Concordium.Programs
import Concordium.Safety

namespace Concordium

open Buffer Wp Runs

set_option synthInstance.maxSize 1000000
set_option synthInstance.maxHeartbeats 100000

/-- The two states differ at most in the screen, as `p` allows, and in what was
    logged before: `base` in the one, `base'` in the other. -/
def Hidden (p : Screen → Screen → Prop) (base base' : List Event) (s t : World) : Prop :=
  ∃ es screen, p s.screen screen ∧ s.log = base ++ es ∧
    t = { s with screen := screen, log := base' ++ es }

section Hidden
variable {p : Screen → Screen → Prop} [Std.Refl p] {base base' : List Event}

omit [Std.Refl p] in
theorem hidden_modify {f : World → World}
    (hf : ∀ s screen log, f { s with screen := screen, log := log } =
      { f s with screen := screen, log := log }) :
    Respects (Hidden p base base') (modify f : App PUnit) := by
  refine respects_modify ?_
  rintro s _ ⟨es, screen, hp, hs, rfl⟩
  have hself : f s = { f s with screen := s.screen, log := s.log } := hf s s.screen s.log
  refine ⟨es, screen, ?_, ?_, hf s screen _⟩
  · rw [hself]
    exact hp
  · rw [hself]
    exact hs

instance {e : Event} : Respects (Hidden p base base') (record e) := by
  refine respects_modify ?_
  rintro s _ ⟨es, screen, hp, hs, rfl⟩
  exact ⟨es ++ [e], screen, hp, by simp [hs], by simp⟩

instance {rows : List Row} {actions : List Callback} :
    Respects (Hidden p base base') (showScreen rows actions) where
  respects := by
    rintro s _ ⟨es, screen, -, hs, rfl⟩
    exact ⟨rfl, es ++ [.drawn (s.screenOf rows actions)], s.screenOf rows actions,
      Std.Refl.refl _, by simp [hs, World.screenOf], by simp [World.screenOf]⟩

instance {data : Bytes} {sw : UInt16} : Respects (Hidden p base base')
    (ioSendResponse data sw) := by
  have : Respects (Hidden p base base')
      (modify fun w : World => { w with replyPending := false } : App PUnit) :=
    hidden_modify fun _ _ _ => rfl
  unfold ioSendResponse; infer_instance

instance {sw : UInt16} : Respects (Hidden p base base') (ioSendSw sw) := by
  unfold ioSendSw; infer_instance

instance : Respects (Hidden p base base') releaseInstruction := by
  have : Respects (Hidden p base base')
      (modify fun w : World => { w with txState := { w.txState with currentInstruction := none } } :
        App PUnit) :=
    hidden_modify fun _ _ _ => rfl
  unfold releaseInstruction; infer_instance

instance : Respects (Hidden p base base') zeroGlobal :=
  hidden_modify fun _ _ _ => rfl

instance {b : Bool} : Respects (Hidden p base base')
    (modify fun w => { w with publicKeyReviewPending := b } : App PUnit) :=
  hidden_modify fun _ _ _ => rfl

instance [Platform] : Respects (Hidden p base base') uiMenuMain := by
  unfold uiMenuMain; infer_instance

omit [Std.Refl p] in
theorem hidden_get {α : Type} {f : World → App α}
    (hsame : ∀ w screen log, f { w with screen := screen, log := log } = f w)
    (hf : ∀ w, Respects (Hidden p base base') (f w)) :
    Respects (Hidden p base base') (get >>= f) := by
  refine respects_get ?_ hf
  rintro s _ ⟨es, screen, -, -, rfl⟩
  exact hsame s screen _

instance {α : Type} {x : App α} {recover : UInt16 → App α} [hx : Respects (Hidden p base base') x]
    [hr : ∀ sw, Respects (Hidden p base base') (recover sw)] :
    Respects (Hidden p base base') (catching x recover) where
  respects s t h := by
    have hst := hx.respects s t h
    unfold catching
    rcases hs : x s with ⟨a, s'⟩ | ⟨_ | _, s'⟩ <;> rcases ht : x t with ⟨b, t'⟩ | ⟨_ | _, t'⟩ <;>
      rw [hs, ht] at hst
    case error.statusWord.error.statusWord =>
      obtain ⟨he, hr'⟩ := hst
      cases he
      exact (hr _).respects s' t' hr'
    all_goals first | exact hst | exact hst.elim | exact absurd hst.1 (by simp)

variable [Platform]

omit [Std.Refl p] in
/-- What the primitives cannot tell, the programs built from them cannot. -/
theorem Built.hidden_of {P : Power → Prop} (hP : ∀ k, P k.next → P k)
    (hprim : ∀ (k : Power) (α : Type) (x : App α), P k → Primitive k x →
      Respects (Hidden p base base') x)
    {k : Power} {α : Type} {x : App α} (hk : P k) (h : Built k x) :
    Respects (Hidden p base base') x := by
  induction h with
  | primitive h => exact hprim _ _ _ hk h
  | pure | throw => infer_instance
  | bind _ _ ihx ihf => exact @respects_bind _ _ _ _ _ _ _ (ihx hk) fun a => ihf a hk
  | ask hsame _ ih =>
    refine respects_get ?_ fun w => ih w hk
    rintro s _ ⟨es, screen, -, -, rfl⟩
    exact hsame s screen _
  | catching _ _ ihx ihr =>
    have := ihx hk
    have := fun sw => ihr sw hk
    infer_instance
  | weaken _ ih => exact ih (hP _ hk)

instance {α : Type} [Union.Member InstructionContext α] :
    Respects (Hidden p base base') (getCtx α) := by
  unfold getCtx
  refine respects_get ?_ fun _ => inferInstance
  rintro s _ ⟨es, screen, -, -, rfl⟩
  rfl

/-- A program that only reads. -/
instance (priority := low) {α : Type} {x : App α} [h : Built .reads x] :
    Respects (Hidden p base base') x := by
  refine h.hidden_of (P := (· = .reads)) (fun k hk => ?_) (fun k α x hk hx => ?_) rfl
  · cases k <;> cases hk
  · subst hk
    cases hx with
    | getCtx => infer_instance

instance {bs : Bytes} : Respects (Hidden p base base') (updateHash bs) := by
  have : Respects (Hidden p base base')
      (modify fun w : World =>
        { w with txState := { w.txState with hash := w.txState.hash ++ bs } } : App PUnit) :=
    hidden_modify fun _ _ _ => rfl
  unfold updateHash; infer_instance

/-- No primitive can tell. -/
theorem Primitive.hidden {k : Power} {α : Type} {x : App α} (h : Primitive k x) :
    Respects (Hidden p base base') x := by
  cases h with
  | header cdata kind =>
    have (a : AccountSender) : Respects (Hidden p base base')
        (modify fun w : World => { w with accountSender := a } : App PUnit) :=
      hidden_modify fun _ _ _ => rfl
    unfold hashAccountTransactionHeaderAndKind hashHeaderAndType
    refine @respects_bind _ _ _ _ _ _ _ inferInstance fun _ => ?_
    refine hidden_get (fun _ _ _ => rfl) fun w => ?_
    iterate 5 refine @respects_bind _ _ _ _ _ _ _ inferInstance fun _ => ?_
    exact hidden_get (fun _ _ _ => rfl) fun _ => inferInstance
  | setCtx | publicKeyReviewPending | reviewedPath | comparePublicKey | transactionHash =>
    exact hidden_modify fun _ _ _ => rfl
  | sha256Init =>
    have : Respects (Hidden p base base')
        (modify fun w : World => { w with txState := { w.txState with hash := [] } } : App PUnit) :=
      hidden_modify fun _ _ _ => rfl
    unfold Concordium.sha256Init; infer_instance
  | setDerivationPath dp =>
    have : Respects (Hidden p base base')
        (modify fun w : World => { w with derivationPath := dp } : App PUnit) :=
      hidden_modify fun _ _ _ => rfl
    unfold Concordium.setDerivationPath; infer_instance
  | sendRejection => unfold Concordium.sendRejection; infer_instance
  | endFlow => unfold Concordium.endFlow; infer_instance
  | sendUserRejection =>
    unfold Concordium.sendUserRejection sendUserRejectionNoIdle; infer_instance
  | sendSuccess => unfold Concordium.sendSuccess; infer_instance
  | getCtx | updateHash | parsed | signed | releaseInstruction | showScreen | uiMenuMain |
    acknowledge | ioSendResponse =>
    infer_instance

theorem Built.hidden {k : Power} {α : Type} {x : App α} (h : Built k x) :
    Respects (Hidden p base base') x :=
  h.hidden_of (P := fun _ => True) (fun _ _ => trivial) (fun _ _ _ _ => Primitive.hidden) trivial

instance (priority := low) {α : Type} {x : App α} [h : Built .replies x] :
    Respects (Hidden p base base') x :=
  h.hidden

/-! ## Packets -/

instance {sw : UInt16} : Respects (Hidden p base base') (trustedNameSendSetError sw) := by
  have : Respects (Hidden p base base') eraseStoredChallenge :=
    hidden_modify fun _ _ _ => rfl
  unfold trustedNameSendSetError; infer_instance

instance : Respects (Hidden p base base') refuseTrustedName := by
  unfold refuseTrustedName; infer_instance

instance {tlv : TrustedNameTlvExtracted} :
    Respects (Hidden p base base') (storeTrustedName tlv) := by
  have : Respects (Hidden p base base') eraseStoredChallenge :=
    hidden_modify fun _ _ _ => rfl
  unfold storeTrustedName
  iterate 2 refine @respects_bind _ _ _ _ _ _ _ inferInstance fun _ => ?_
  exact @respects_bind _ _ _ _ _ _ _ (hidden_modify fun _ _ _ => rfl)
    fun _ => inferInstance

instance {cmd : Command} : Respects (Hidden p base base') (handleSetTrustedName cmd) := by
  unfold handleSetTrustedName
  refine @respects_ite _ _ _ _ _ _ _ _ inferInstance ?_
  refine @respects_ite _ _ _ _ _ _ _ _ inferInstance ?_
  refine @respects_bind _ _ _ _ _ _ _ (hidden_modify fun _ _ _ => rfl) fun _ => ?_
  cases ccdParseTlv cmd.data with
  | none => infer_instance
  | some ctx =>
    refine @respects_bind _ _ _ _ _ _ _ inferInstance fun _ => ?_
    refine @respects_ite _ _ _ _ _ _ _ _ inferInstance ?_
    exact hidden_get (fun _ _ _ => rfl) fun _ => inferInstance

instance : Respects (Hidden p base base') handleGetChallenge := by
  unfold handleGetChallenge
  refine hidden_get (fun _ _ _ => rfl) fun w => ?_
  exact @respects_bind _ _ _ _ _ _ _ (hidden_modify fun _ _ _ => rfl)
    fun _ => inferInstance

instance {sw : UInt16} : Respects (Hidden p base base') (refuseAddress sw) := by
  unfold refuseAddress; infer_instance

instance : Respects (Hidden p base base') uiVerifyAddress := by
  unfold uiVerifyAddress
  cases (Platform.backend : Backend) <;> infer_instance

instance {ctx : VerifyAddressContext} {address : Option (Buf 65)} :
    Respects (Hidden p base base') (reviewBoundAddress ctx address) := by
  cases address <;> unfold reviewBoundAddress <;> infer_instance

instance : Respects (Hidden p base base') clearTrustedNameBinding :=
  hidden_modify fun _ _ _ => rfl

instance {dp : DerivationPath} {network : DerivationPathNetwork} {credCounter : UInt32} :
    Respects (Hidden p base base') (reviewAddress dp network credCounter) := by
  unfold reviewAddress
  refine hidden_get (fun _ _ _ => rfl) fun w => ?_
  dsimp only
  infer_instance

instance {cmd : Command} : Respects (Hidden p base base') (handleVerifyAddress cmd) := by
  unfold handleVerifyAddress
  iterate 2 refine @respects_bind _ _ _ _ _ _ _ inferInstance fun _ => ?_
  refine @respects_bind _ _ _ _ _ _ _ inferInstance fun r => ?_
  rcases r with sw | ⟨dp, credCounter⟩
  · infer_instance
  · refine @respects_bind _ _ _ _ _ _ _ inferInstance fun _ => ?_
    refine @respects_bind _ _ _ _ _ _ _ inferInstance fun ⟨_, _⟩ => ?_
    infer_instance

instance {cmd : Command} {x : App Unit} [Respects (Hidden p base base') x] :
    Respects (Hidden p base base') (withData cmd x) := by
  unfold withData; infer_instance

instance {cmd : Command} {x : App Unit} [Respects (Hidden p base base') x] :
    Respects (Hidden p base base') (withoutData cmd x) := by
  unfold withoutData; infer_instance

/-- Whatever instruction it is. -/
instance {cmd : Command} {isInitialCall : Bool} :
    Respects (Hidden p base base') (dispatchInstruction cmd isInitialCall) := by
  by_cases hins : cmd.ins ∈ trustInstructions
  · simp only [trustInstructions, List.mem_cons, List.not_mem_nil, or_false] at hins
    unfold dispatchInstruction
    rcases hins with hins | hins | hins <;> rw [hins]
    · rw [if_neg (by decide), if_pos rfl]
      infer_instance
    · iterate 16 rw [if_neg (by decide)]
      rw [if_pos rfl]
      infer_instance
    · iterate 17 rw [if_neg (by decide)]
      rw [if_pos rfl]
      infer_instance
  · exact (built_dispatchInstruction hins).hidden

instance {ins : UInt8} : Respects (Hidden p base base') (claimInstruction ins) := by
  have : Respects (Hidden p base base')
      (modify fun w : World =>
        { w with txState := { w.txState with currentInstruction := some ins } } : App PUnit) :=
    hidden_modify fun _ _ _ => rfl
  unfold claimInstruction; infer_instance

instance {cmd : Command} {isInitialCall : Bool} :
    Respects (Hidden p base base') (dispatchGuarded cmd isInitialCall) := by
  have : Respects (Hidden p base base') (apduDispatcher cmd isInitialCall) := by
    unfold apduDispatcher
    exact hidden_get (fun _ _ _ => rfl) fun _ => inferInstance
  unfold dispatchGuarded; infer_instance

instance {cmd : Command} : Respects (Hidden p base base') (runCommand cmd) := by
  unfold runCommand
  exact hidden_get (fun _ _ _ => rfl) fun _ => inferInstance

omit [Platform] in
instance : Respects (Hidden p base base') deliver := by
  have : Respects (Hidden p base base')
      (modify fun w : World => { w with replyPending := true } : App PUnit) :=
    hidden_modify fun _ _ _ => rfl
  unfold deliver; infer_instance

/-- What the host sends. -/
def Input.isPacket : Input → Bool
  | .activate _ => false
  | _ => true

omit [Std.Refl p] in
/-- An input that is enabled in both states or in neither is taken alike, when
    its program cannot tell. -/
theorem step_hidden {s t : World} {i : Input} (henabled : enabled t i = enabled s i)
    (hrun : Respects (Hidden p base base') (runInput i)) (h : Hidden p base base' s t) :
    Option.Rel (Hidden p base base') (step s i) (step t i) := by
  have hst := hrun.respects s t h
  unfold step
  rw [henabled]
  split_ifs
  · rcases hs : runInput i s with ⟨a, s'⟩ | ⟨e, s'⟩ <;>
      rcases ht : runInput i t with ⟨b, t'⟩ | ⟨e', t'⟩ <;> rw [hs, ht] at hst
    · exact .some hst.2
    · exact hst.elim
    · exact hst.elim
    · exact .none
  · exact .none

/-- The host's packets. -/
theorem respects_packet {i : Input} (hi : i.isPacket) :
    Respects (Hidden p base base') (runInput i) := by
  cases i with
  | activate c => cases hi
  | badLength | badClass | apdu => unfold runInput; infer_instance

end Hidden

/-! ## States that differ in their logs -/

section Logs
variable [Platform] {base base' : List Event} {s t : World} {i : Input}

instance : Std.Refl (Eq : Screen → Screen → Prop) := ⟨fun _ => rfl⟩

instance {c : Callback} : Respects (Hidden Eq base base') (activate c) := by
  have hcallback : Respects (Hidden Eq base base') (runCallback c) :=
    (inferInstance : Built c.power (runCallback c)).hidden
  have hactions : Respects (Hidden Eq base base')
      (modify fun w : World => { w with screen := { w.screen with actions := [] } } :
        App PUnit) := by
    refine respects_modify ?_
    rintro s _ ⟨es, screen, rfl, hs, rfl⟩
    exact ⟨es, _, rfl, hs, rfl⟩
  unfold activate
  cases (Platform.backend : Backend) <;> infer_instance

/-- Whatever the input is, states that differ in their logs take it alike. -/
theorem step_hidden_log (h : Hidden Eq base base' s t) :
    Option.Rel (Hidden Eq base base') (step s i) (step t i) := by
  refine step_hidden ?_ ?_ h
  · obtain ⟨es, screen, rfl, -, rfl⟩ := h
    cases i <;> rfl
  · cases i with
    | activate c => unfold runInput; infer_instance
    | badLength | badClass | apdu => exact respects_packet rfl

/-- The two states differ in their logs only. -/
def SameButLog (s t : World) : Prop := t = { s with log := t.log }

/-- From states that differ in their logs only, every continuation leads to such
    states, or is possible in neither. -/
theorem runs_sameButLog (h : SameButLog s t) (is : List Input) :
    Option.Rel SameButLog (runInputs s is) (runInputs t is) := by
  have hstart : Hidden Eq s.log t.log s t :=
    ⟨[], s.screen, rfl, by simp, by simpa [SameButLog] using h⟩
  have hstep : ∀ u v i, True → Hidden Eq s.log t.log u v →
      Option.Rel (Hidden Eq s.log t.log) (step u i) (step v i) :=
    fun _ _ _ _ => step_hidden_log
  have hrel := run_related hstep hstart (fun i (_ : i ∈ is) => trivial)
  unfold runInputs
  cases hs : run step s is <;> cases ht : run step t is <;> rw [hs, ht] at hrel
  · exact .none
  · cases hrel
  · cases hrel
  · cases hrel with
    | some hst =>
      obtain ⟨es, screen, rfl, -, rfl⟩ := hst
      exact .some rfl

end Logs

end Concordium
