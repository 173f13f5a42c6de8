/-
  The instructions that sign no transaction.

  Key export, public keys, address verification and trusted names answer once
  or show one harmless review, whatever packet arrives.
-/
import Concordium.Outcome

namespace Concordium

open Buffer Wp

set_option synthInstance.maxSize 1000000
set_option synthInstance.maxHeartbeats 100000

/-- The condition of an instruction that keeps the latch and has no flow. -/
def NoFlow (_ : World) : Prop := True

/-- While `ins` holds the latch, the program ends in an outcome.  A program that
    releases the latch does so for every `L`. -/
class Serves (ins : UInt8) (L : World → Prop) (x : App Unit) : Prop where
  serves : ∀ s, s.latch = some ins → s.replyPending = true →
    wp x (fun _ t => Outcome .harmless L ins s t) (Thrown s) s

/-! ## Quiet programs -/

instance (priority := low) {α : Type} {x : App α} [h : Frames Inner x] : Frames Quiet x :=
  h.mono fun _ _ => Inner.quiet

instance {f : World → TrustedName} :
    Frames Quiet (modify fun w => { w with trusted := f w } : App PUnit) where
  frames _ := { log := ⟨[], by simp⟩ }

instance {f : World → ℕ} :
    Frames Quiet (modify fun w => { w with storedChallenge := f w } : App PUnit) where
  frames _ := { log := ⟨[], by simp⟩ }

instance {tlv : TrustedNameTlvExtracted} : Frames Quiet (record (.trustedNameSet tlv)) where
  frames s := by rw [wp_record]; exact { log := ⟨_, rfl, by simp [Event.isQuiet]⟩ }

instance [Platform] {tlv : TrustedNameTlvExtracted} : Frames Quiet (storeTrustedName tlv) := by
  unfold storeTrustedName eraseStoredChallenge; infer_instance

instance : Frames Quiet clearTrustedNameBinding := by
  unfold clearTrustedNameBinding; infer_instance

/-! ## Last steps -/

section Serves
variable {ins : UInt8} {L : World → Prop}

instance {e : Exception} : Serves ins L (throw e) := ⟨fun s _ _ => fun _ _ => refl_of Quiet s⟩

instance serves_bind {α : Type} {x : App α} {f : α → App Unit} [Frames Quiet x]
    [hf : ∀ v, Serves ins L (f v)] : Serves ins L (x >>= f) where
  serves s hl hp := by
    rw [wp_bind]
    refine wp_frames x (fun v t hst => ?_) (fun _ _ hst _ _ => hst)
    refine wp_mono (fun _ u hu => hu.of_quiet hst) (fun _ _ hu => hu.of_quiet hst)
      ((hf v).serves t (hst.latch.trans hl) (hst.replyPending.trans hp))

instance serves_bind_prod {α β : Type} {x : App (α × β)} {f : α × β → App Unit}
    [Frames Quiet x] [∀ u v, Serves ins L (f (u, v))] : Serves ins L (x >>= f) :=
  have : ∀ p, Serves ins L (f p) := fun ⟨_, _⟩ => inferInstance
  serves_bind

instance {c : Prop} [Decidable c] {x y : App Unit} [Serves ins L x] [Serves ins L y] :
    Serves ins L (if c then x else y) := by
  split_ifs <;> infer_instance

instance {data : Bytes} {sw : UInt16} : Serves ins NoFlow (ioSendResponse data sw) :=
  ⟨fun _ hl _ => outcome_ioSendResponse hl trivial⟩

instance {sw : UInt16} : Serves ins NoFlow (ioSendSw sw) := by unfold ioSendSw; infer_instance

instance {sw : UInt16} : Serves ins L (sendRejection sw) :=
  ⟨fun _ _ _ => outcome_sendRejection⟩

instance {rows : List Row} {actions : List Callback} [ha : Allowed .harmless ins actions] :
    Serves ins NoFlow (showScreen rows actions) :=
  ⟨fun _ hl hp => outcome_showScreen hl hp ha.allowed trivial⟩

instance {title : Row} {pairs : List Row} {finish : Bytes} {confirm reject : Callback}
    [AllowedStep .harmless ins confirm] [AllowedStep .harmless ins reject] :
    Serves ins NoFlow (nbglReview title pairs finish confirm reject) := by
  unfold nbglReview; infer_instance

variable [Platform]

instance {data : Bytes} : Serves ins L (sendSuccess data) :=
  ⟨fun _ _ _ => by rw [wp_sendSuccess]; exact outcome_menu⟩

instance : Serves ins L sendUserRejection :=
  ⟨fun _ _ _ => by rw [wp_sendUserRejection]; exact outcome_menu⟩

/-! ## Key export -/

instance {approve reject : Callback} [AllowedStep .harmless ins approve]
    [AllowedStep .harmless ins reject] : Serves ins NoFlow (uiExportReview approve reject) := by
  unfold uiExportReview
  cases (Platform.backend : Backend) <;> infer_instance

instance {cmd : Command} : Serves insExportPrivateKeyLegacy NoFlow
    (handleExportPrivateKeyLegacyPath cmd) := by
  unfold handleExportPrivateKeyLegacyPath uiExportPrivateKey
  cases legacyPurposeText cmd.p1 <;> infer_instance

instance {cmd : Command} : Serves ins NoFlow (handleExportPrivateKeyNewPath cmd) := by
  unfold handleExportPrivateKeyNewPath uiExportPrivateKeysNewPath; infer_instance

instance : Serves ins L exportPrivateKeySeed := by unfold exportPrivateKeySeed; infer_instance

instance : Serves ins L exportPrivateKeyBls := by unfold exportPrivateKeyBls; infer_instance

instance : Serves ins L exportPrivateKey := by unfold exportPrivateKey; infer_instance

instance : Serves ins L rejectPrivateKeysNewPath := by
  unfold rejectPrivateKeysNewPath; infer_instance

/-! ## Trusted names and address verification -/

instance {sw : UInt16} : Serves ins L (trustedNameSendSetError sw) where
  serves s hl hp := by
    simp only [trustedNameSendSetError, eraseStoredChallenge, ioSendSw, wp_bind, wp_modify,
      wp_releaseInstruction, wp_record, wp_ioSendResponse]
    exact ⟨⟨[.released, .trustedNameRefused, .reply [] sw], by simp,
      by simp [Event.isOutput, Event.isQuiet], rfl⟩, .inl rfl, nofun, fun _ => .inl rfl⟩

instance : Serves ins L refuseTrustedName := by unfold refuseTrustedName; infer_instance

instance {cmd : Command} : Serves ins NoFlow (handleSetTrustedName cmd) := by
  unfold handleSetTrustedName
  cases ccdParseTlv cmd.data <;> infer_instance

instance : Serves ins NoFlow handleGetChallenge where
  serves s hl hp := by
    let buf := Platform.rng s.rngCalls
    simp only [handleGetChallenge, wp_bind, wp_get, wp_modify, wp_record, wp_ioSendResponse]
    exact ⟨⟨[.released, .challengeIssued (beNat buf.bytes), .reply buf.bytes swoSuccess],
      by simp [buf], by simp [Event.isOutput, Event.isQuiet], rfl⟩, .inl rfl, nofun,
      fun _ => .inl rfl⟩

omit [Platform] in
theorem serves_query (data : Bytes) :
    Serves ins NoFlow (do ioSendResponse data swoSuccess; releaseInstruction) where
  serves s hl hp := by
    simp only [wp_bind, wp_ioSendResponse, wp_releaseInstruction]
    exact ⟨⟨[.reply data swoSuccess, .released], by simp, by simp [Event.isOutput], rfl⟩,
      .inl rfl, nofun, fun _ => .inl rfl⟩

instance : Serves ins NoFlow (do handleGetAppName; releaseInstruction) := serves_query _

instance : Serves ins NoFlow (do handleGetAppVersion; releaseInstruction) := serves_query _

instance {sw : UInt16} : Serves ins L (refuseAddress sw) := by unfold refuseAddress; infer_instance

instance : Serves ins NoFlow uiVerifyAddress := by
  unfold uiVerifyAddress
  cases (Platform.backend : Backend) <;> infer_instance

instance {ctx : VerifyAddressContext} {address : Option (Buf 65)} :
    Serves ins NoFlow (reviewBoundAddress ctx address) := by
  cases address <;> unfold reviewBoundAddress <;> infer_instance

instance {dp : DerivationPath} {network : DerivationPathNetwork} {credCounter : UInt32} :
    Serves ins NoFlow (reviewAddress dp network credCounter) := by
  unfold reviewAddress
  refine @serves_bind _ _ _ _ _ inferInstance fun w => ?_
  dsimp only
  infer_instance

instance {cmd : Command} : Serves ins NoFlow (handleVerifyAddress cmd) := by
  unfold handleVerifyAddress
  refine @serves_bind _ _ _ _ _ inferInstance fun _ => ?_
  refine @serves_bind _ _ _ _ _ inferInstance fun _ => ?_
  refine @serves_bind _ _ _ _ _ inferInstance fun r => ?_
  rcases r with sw | ⟨dp, credCounter⟩ <;> infer_instance

/-! ## Public keys -/

instance : Serves ins NoFlow uiGeneratePubkey := by
  unfold uiGeneratePubkey
  cases (Platform.backend : Backend) <;> infer_instance

instance : Serves ins NoFlow (sendPublicKey false) := by
  unfold sendPublicKey
  simp only [Bool.false_eq_true, if_false]
  infer_instance

instance {cmd : Command} : Serves ins NoFlow (handleGetPublicKey cmd) := by
  unfold handleGetPublicKey; infer_instance

omit [Platform] in
theorem compressPoint_length (W : Buf 65) : (compressPoint W).length = 32 := by
  have := W.size
  unfold compressPoint
  split_ifs <;> simp [this]

omit [Platform] in
theorem wp_toPaginatedHexFrom {n len : ℕ} {bs : Bytes} {i : ℕ} {offset : UInt8} {dst : Buf n}
    {s : World} : wp (toPaginatedHexFrom len bs i offset dst) (fun _ t => t = s)
      (fun e t => e = .fault ∧ t = s) s := by
  induction bs generalizing i offset dst with
  | nil => simp [toPaginatedHexFrom]
  | cons b bs ih =>
    unfold toPaginatedHexFrom
    simp only [wp_bind, wp_memmove, wp_ite, ih, implies_true, and_self]

omit [Platform] in
theorem wp_toPaginatedHex_key {bs : Bytes} {dst : Buf 68} {s : World} (h : bs.length = 32) :
    wp (toPaginatedHex bs dst) (fun _ t => t = s) (fun e t => e = .fault ∧ t = s) s := by
  unfold toPaginatedHex
  rw [wp_bind, wp_throwIf, h]
  exact ⟨fun h => absurd h (by decide), fun _ => wp_toPaginatedHexFrom⟩

end Serves

end Concordium
