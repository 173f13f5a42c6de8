/-
  Frames: what the programs of the model leave alone.

  Three relations between the states before and after a program, from the
  strictest to the loosest: nothing changes (`Eq`), the transaction hash grows
  and nothing else of the flow changes (`Calm`), only the flow itself changes
  (`Inner`).  Each program below a handler is an instance of one of them,
  found by instance search from its text.
-/
import Concordium.Rules

namespace Concordium

open Buffer Wp

-- Instance search walks through a whole program, bind by bind.
set_option synthInstance.maxSize 1000000
set_option synthInstance.maxHeartbeats 100000

/-- A guarded program. -/
instance frames_catching {α : Type} {R : World → World → Prop} [IsPreorder World R] {x : App α}
    {recover : UInt16 → App α} [Frames R x] [∀ sw, Frames R (recover sw)] :
    Frames R (catching x recover) where
  frames s := by
    rw [wp_catching]
    refine wp_frames x (fun _ _ h => h) fun e t hst => ⟨fun sw _ => ?_, fun _ => hst⟩
    exact wp_frames (R := R) (recover sw) (fun _ _ h => trans_of R hst h)
      fun _ _ h => trans_of R hst h

/-! ## What programs are built from -/

/-- What a program may do: read, feed the hash, open a flow, reply and free the
    latch, acknowledge a packet and keep it, or send any reply and claim the
    review of a key. -/
inductive Power where
  | reads | calm | flow | frees | acknowledges | replies
deriving DecidableEq, Repr

/-- The power just above. -/
def Power.next : Power → Power
  | .reads => .calm
  | .calm => .flow
  | .flow => .frees
  | .frees => .acknowledges
  | .acknowledges | .replies => .replies

variable [Platform]

/-- The primitives, each with the least power that has it. -/
inductive Primitive : Power → {α : Type} → App α → Prop
  | getCtx (α : Type) [Union.Member InstructionContext α] : Primitive .reads (getCtx α)
  | setCtx {α : Type} [Union.Member InstructionContext α] (c : α) : Primitive .calm (setCtx c)
  | updateHash (bs : Bytes) : Primitive .calm (updateHash bs)
  | header (cdata : Bytes) (kind : UInt8) :
      Primitive .calm (hashAccountTransactionHeaderAndKind cdata kind)
  | comparePublicKey (c : ComparePublicKey) :
      Primitive .calm (modify fun w => { w with comparePublicKey := c })
  | sha256Init : Primitive .flow sha256Init
  | setDerivationPath (dp : DerivationPath) : Primitive .flow (setDerivationPath dp)
  | parsed (dp : DerivationPath) : Primitive .flow (record (.parsed dp))
  | transactionHash (h : Buf 32) : Primitive .frees
      (modify fun w => { w with txState := { w.txState with transactionHash := h } })
  | signed (ins : Option UInt8) (path : DerivationPath) (preimage : Bytes) :
      Primitive .frees (record (.signed ins path preimage))
  | releaseInstruction : Primitive .frees releaseInstruction
  | showScreen (rows : List Row) (actions : List Callback) :
      Primitive .frees (showScreen rows actions)
  | sendRejection (sw : UInt16) : Primitive .frees (sendRejection sw)
  | endFlow (sw : UInt16) : Primitive .frees (endFlow sw)
  | uiMenuMain : Primitive .frees uiMenuMain
  | sendUserRejection : Primitive .frees sendUserRejection
  | sendSuccess (data : Bytes) : Primitive .frees (sendSuccess data)
  | acknowledge (data : Bytes) : Primitive .acknowledges (ioSendResponse data swoSuccess)
  | ioSendResponse (data : Bytes) (sw : UInt16) : Primitive .replies (ioSendResponse data sw)
  | publicKeyReviewPending (b : Bool) :
      Primitive .replies (modify fun w => { w with publicKeyReviewPending := b })
  | reviewedPath : Primitive .replies (modify fun w => { w with reviewedPath := w.derivationPath })

/-- `x` is put together from the primitives of power `p`.  A state that is read
    is read but for its screen and its log. -/
class inductive Built : Power → {α : Type} → App α → Prop
  | primitive {p : Power} {α : Type} {x : App α} (h : Primitive p x) : Built p x
  | pure {p : Power} {α : Type} (a : α) : Built p (pure a : App α)
  | throw {p : Power} {α : Type} (e : Exception) : Built p (throw e : App α)
  | bind {p : Power} {α β : Type} {x : App α} {f : α → App β} (hx : Built p x)
      (hf : ∀ a, Built p (f a)) : Built p (x >>= f)
  | ask {p : Power} {α : Type} {f : World → App α}
      (hsame : ∀ w screen log, f { w with screen := screen, log := log } = f w)
      (hf : ∀ w, Built p (f w)) : Built p (get >>= f)
  | catching {p : Power} {α : Type} {x : App α} {recover : UInt16 → App α} (hx : Built p x)
      (hr : ∀ sw, Built p (recover sw)) : Built p (catching x recover)
  | weaken {p : Power} {α : Type} {x : App α} (hx : Built p x) : Built p.next x

namespace Built
variable {p : Power} {α β : Type}

instance {a : α} : Built p (Pure.pure a : App α) := .pure a

instance {e : Exception} : Built p (MonadExcept.throw e : App α) := .throw e

instance {x : App α} {f : α → App β} [hx : Built p x] [hf : ∀ a, Built p (f a)] :
    Built p (x >>= f) := .bind hx hf

instance {α' : Type} {x : App (α × α')} {f : α × α' → App β} [hx : Built p x]
    [hf : ∀ a b, Built p (f (a, b))] : Built p (x >>= f) :=
  .bind hx fun ⟨a, b⟩ => hf a b

instance {x : App (Option α)} {f : Option α → App β} [hx : Built p x] [hn : Built p (f none)]
    [hs : ∀ a, Built p (f (some a))] : Built p (x >>= f) :=
  .bind hx fun | none => hn | some a => hs a

instance ite {c : Prop} [Decidable c] {x y : App α} [Built p x] [Built p y] :
    Built p (if c then x else y) := by
  split_ifs <;> infer_instance

instance {c : Prop} [Decidable c] {x : c → App α} {y : ¬ c → App α} [∀ h, Built p (x h)]
    [∀ h, Built p (y h)] : Built p (if h : c then x h else y h) := by
  split_ifs <;> infer_instance

instance {x : App α} {recover : UInt16 → App α} [hx : Built p x] [hr : ∀ sw, Built p (recover sw)] :
    Built p (Concordium.catching x recover) := .catching hx hr

instance (priority := low) {x : App α} [h : Built .reads x] : Built .calm x :=
  .weaken h

instance (priority := low) {x : App α} [h : Built .calm x] : Built .flow x :=
  .weaken h

instance (priority := low) {x : App α} [h : Built .flow x] : Built .frees x :=
  .weaken h

instance (priority := low) {x : App α} [h : Built .frees x] : Built .acknowledges x :=
  .weaken h

instance (priority := low) {x : App α} [h : Built .acknowledges x] : Built .replies x :=
  .weaken h

/-- What the primitives of each power keep, the programs built from them keep. -/
theorem frames {F : Power → World → World → Prop} (hF : ∀ p, IsPreorder World (F p))
    (hmono : ∀ (p : Power) s t, F p s t → F p.next s t)
    (hprim : ∀ (p : Power) (α : Type) (x : App α), Primitive p x → Frames (F p) x)
    {x : App α} (h : Built p x) : Frames (F p) x := by
  induction h with
  | primitive h => exact hprim _ _ _ h
  | pure | throw => infer_instance
  | bind _ _ ihx ihf => exact @frames_bind _ _ _ _ _ _ _ _ ihx ihf
  | ask _ _ ih => exact @frames_bind _ _ _ _ _ _ _ _ inferInstance ih
  | catching _ _ ihx ihr => exact @frames_catching _ _ _ _ _ ihx ihr
  | weaken _ ih => exact ih.mono (hmono _)

end Built

/-! ## Programs that only read -/

section Reads

/-- Nothing is asked. -/
def Anything (_ _ : World) : Prop := True

omit [Platform] in
instance : IsPreorder World Anything where
  refl _ := trivial
  trans _ _ _ _ _ := trivial

omit [Platform] in
theorem frames_anything {α : Type} (x : App α) : Frames Anything x :=
  ⟨fun _ => wp_iff.mpr ⟨fun _ _ _ => trivial, fun _ _ _ => trivial⟩⟩

/-- What a power may change, as far as reading goes. -/
def Power.readsOr : Power → World → World → Prop
  | .reads => Eq
  | _ => Anything

theorem Built.frames_reads {α : Type} {x : App α} (h : Built .reads x) : Frames Eq x := by
  have hpre (p : Power) : IsPreorder World p.readsOr := by
    cases p <;> unfold Power.readsOr <;> infer_instance
  refine h.frames (F := Power.readsOr) hpre (fun p s t _ => ?_) fun p α x hx => ?_
  · cases p <;> trivial
  · cases hx with
    | getCtx => exact ⟨fun _ => rfl⟩
    | _ => exact frames_anything _

instance {α : Type} {x : App α} [h : Built .reads x] : Frames Eq x := h.frames_reads

instance {α : Type} [Union.Member InstructionContext α] : Built .reads (getCtx α) :=
  .primitive (.getCtx α)

instance {c : Prop} [Decidable c] {sw : UInt16} : Built .reads (throwIf c sw) := by
  unfold throwIf; infer_instance

instance {c : Prop} [Decidable c] : Built .reads (assertInBounds c) := by
  unfold assertInBounds; infer_instance

instance {n : ℕ} {dst : Buf n} {off : ℕ} {bs : Bytes} : Built .reads (memmove dst off bs) := by
  unfold memmove; infer_instance

instance {bs : Bytes} {off k : ℕ} : Built .reads (slice bs off k) := by
  unfold slice; infer_instance

instance {bs : Bytes} {off : ℕ} : Built .reads (u8 bs off) := by unfold u8; infer_instance

instance {bs : Bytes} {off : ℕ} : Built .reads (u2be bs off) := by unfold u2be; infer_instance

instance {bs : Bytes} {off : ℕ} : Built .reads (u4be bs off) := by unfold u4be; infer_instance

instance {bs : Bytes} {off : ℕ} : Built .reads (u8be bs off) := by unfold u8be; infer_instance

instance {bs : Bytes} {k : ℕ} : Built .reads (advance bs k) := by unfold advance; infer_instance

instance {a b : ℕ} : Built .reads (checkedSub a b) := by unfold checkedSub; infer_instance

instance {n k : ℕ} : Built .reads (numberToText n k) := by unfold numberToText; infer_instance

instance {n k : ℕ} : Built .reads (binToDec n k) := by unfold binToDec; infer_instance

instance {n len : ℕ} {bs : Bytes} {i : ℕ} {offset : UInt8} {dst : Buf n} :
    Built .reads (toPaginatedHexFrom len bs i offset dst) := by
  induction bs generalizing i offset dst <;> unfold toPaginatedHexFrom <;> infer_instance

instance {n : ℕ} {bs : Bytes} {dst : Buf n} : Built .reads (toPaginatedHex bs dst) := by
  unfold toPaginatedHex; infer_instance

instance {n : ℕ} {bs : Bytes} {dst : Buf n} {sw : UInt16} :
    Built .reads (formatHexInto bs dst sw) := by
  unfold formatHexInto; split <;> infer_instance

instance {cdata : Bytes} : Built .reads (parseDerivationPathFromBuffer cdata) := by
  unfold parseDerivationPathFromBuffer; infer_instance

instance {lc expected : ℕ} : Built .reads (checkLc lc expected) := by unfold checkLc; infer_instance

instance {cdata : Bytes} {mainnet : Bool} :
    Built .reads (parseDerivationPathNew cdata mainnet) := by
  unfold parseDerivationPathNew; infer_instance

instance {cdata : Bytes} : Built .reads (parseDerivationPathLegacy cdata) := by
  unfold parseDerivationPathLegacy; infer_instance

instance {dp : DerivationPath} : Built .reads (pathDisplayNetwork dp) := by
  unfold pathDisplayNetwork; infer_instance

instance {n : ℕ} {a b : UInt32} : Built .reads (pathDisplayLegacy n a b) := by
  unfold pathDisplayLegacy; infer_instance

instance {n : ℕ} {a b c : UInt32} : Built .reads (pathDisplayNew n a b c) := by
  unfold pathDisplayNew; infer_instance

instance {n : ℕ} {nodes : List UInt32} {text : Bytes} :
    Built .reads (pathDisplayFullFrom n nodes text) := by
  induction nodes generalizing text <;> unfold pathDisplayFullFrom <;> infer_instance

instance {n : ℕ} {dst : Buf n} {dp : DerivationPath} : Built .reads (pathDisplayFull dst dp) := by
  unfold pathDisplayFull; infer_instance

instance {restake : UInt8} : Built .reads (restakeText restake) := by
  unfold restakeText; infer_instance

instance {status : UInt8} : Built .reads (openForDelegationText status) := by
  unfold openForDelegationText; infer_instance

instance {suspended : UInt8} : Built .reads (suspendedText suspended) := by
  unfold suspendedText; infer_instance

instance {page : Bytes} : Built .reads (urlPage page) := by unfold urlPage; infer_instance

instance {ctx : CborContext} {label : Bytes} : Built .reads (cborSetTypeLabel ctx label) := by
  unfold cborSetTypeLabel; infer_instance

instance {n : ℕ} : Built .reads (negativeText n) := by unfold negativeText; infer_instance

instance {n : ℕ} {text : Bytes} {separator : String} :
    Built .reads (appendSeparator n text separator) := by
  unfold appendSeparator; infer_instance

instance {n : ℕ} {text : Bytes} {value : ℤ} : Built .reads (appendTwoDigits n text value) := by
  unfold appendTwoDigits; infer_instance

instance {time : Tm} {n : ℕ} : Built .reads (timeToDisplayText time n) := by
  unfold timeToDisplayText; infer_instance

instance {n : ℕ} {dst : Buf n} {ms : ℕ} : Built .reads (appendMilliseconds dst ms) := by
  unfold appendMilliseconds; infer_instance

instance {ms : ℕ} {dst : Buf 25} : Built .reads (timestampText ms dst) := by
  unfold timestampText; split <;> infer_instance

instance {stream : ContractStream} {cdata : Bytes} : Built .reads (nameHeader stream cdata) := by
  unfold nameHeader; infer_instance

instance {stream : ContractStream} {name : Bytes} : Built .reads (retainName stream name) := by
  unfold retainName; infer_instance

instance {stream : ContractStream} {cdata : Bytes} : Built .reads (paramsHeader stream cdata) := by
  unfold paramsHeader; infer_instance

instance {tag : UInt8} : Built .reads (attributeNameForTag tag) := by
  unfold attributeNameForTag; split <;> infer_instance

instance {ctx : ExportPrivateKeyContext} {a b c d : Bytes} :
    Built .reads (setExportTexts ctx a b c d) := by
  unfold setExportTexts; infer_instance

instance {n : ℕ} {buf : Buf n} {off k : ℕ} {more : Bool} :
    Built .reads (appendDec buf off k more) := by
  unfold appendDec; infer_instance

instance {level : UInt32} : Built .reads (governanceLabel level) := by
  unfold governanceLabel; infer_instance

instance {dp : DerivationPath} : Built .reads (publicKeyDisplay dp) := by
  unfold publicKeyDisplay; infer_instance

instance {dp : DerivationPath} {counter : UInt32} : Built .reads (pathRow dp counter) := by
  unfold pathRow; split <;> infer_instance

instance {a b : ℕ} : Built .reads (formatFpu64Tmp a b) := by
  unfold formatFpu64Tmp; split <;> infer_instance

instance {n k : ℕ} : Built .reads (fractionToPercentageDisplay n k) := by
  unfold fractionToPercentageDisplay; infer_instance

instance {n k : ℕ} : Built .reads (amountToCcdDisplay n k) := by
  unfold amountToCcdDisplay; infer_instance

instance {n k : ℕ} {e : ℤ} {id : Bytes} : Built .reads (pltAmountToDisplay n k e id) := by
  unfold pltAmountToDisplay; infer_instance

instance {bs : Bytes} {n : ℕ} : Built .reads (base58checkEncode bs n) := by
  unfold base58checkEncode; infer_instance

instance {n : ℕ} {bs : Bytes} {dst : Buf n} : Built .reads (base58Address bs dst) := by
  unfold base58Address; infer_instance

instance {bs : Bytes} : Built .reads (feeDisplayApplyU64 bs) := by
  unfold feeDisplayApplyU64; infer_instance

instance {p2 : UInt8} {cdata : Bytes} {off : ℕ} : Built .reads (readFee p2 cdata off) := by
  unfold readFee; infer_instance

instance {α : Type} {a : Option α} : Built .reads (ensureNoError a) := by
  cases a <;> unfold ensureNoError <;> infer_instance

instance {path : DerivationPath} : Built .reads (getExtendedPrivateKey path) := by
  unfold getExtendedPrivateKey; infer_instance

instance {path : DerivationPath} : Built .reads (getPrivateKey path) := by
  unfold getPrivateKey; infer_instance

instance {path : DerivationPath} : Built .reads (getPublicKey path) := by
  unfold getPublicKey; infer_instance

instance {path : DerivationPath} {input : Bytes} : Built .reads (sign path input) := by
  unfold sign; infer_instance

instance {path : DerivationPath} : Built .reads (getBlsPrivateKey path) := by
  unfold getBlsPrivateKey; infer_instance

instance {ctx : CborContext} {value : Platform.cbor.Value} :
    Built .reads (parseCompleteText ctx value) := by
  unfold parseCompleteText
  split
  · infer_instance
  · split <;> infer_instance

instance {ctx : CborContext} : Built .reads (parseCompleteCbor ctx) := by
  unfold parseCompleteCbor
  split
  · infer_instance
  · dsimp only
    split <;> infer_instance

instance {ctx : CborContext} : Built .reads (finishCbor ctx) := by
  unfold finishCbor; infer_instance

instance {ctx : CborContext} {cdata : Bytes} : Built .reads (readCborInitial ctx cdata) := by
  unfold readCborInitial; infer_instance

instance {ctx : CborContext} {cdata : Bytes} : Built .reads (readCborContent ctx cdata) := by
  unfold readCborContent; infer_instance

instance {state : RegisterDataState} {n : ℕ} {cbor : CborContext} {cdata : Bytes} :
    Built .reads (readRegisterData state n cbor cdata) := by
  unfold readRegisterData; split <;> infer_instance

instance {basePath : List UInt32} {account keyType : UInt32} {n tx : ℕ} :
    Built .reads (exportKey basePath account n tx keyType) := by
  unfold exportKey; split <;> infer_instance

instance {basePath : List UInt32} {account : UInt32} {n : ℕ} {keyTypes : List UInt32}
    {out : Bytes} : Built .reads (exportKeys basePath account n keyTypes out) := by
  induction keyTypes generalizing out <;> unfold exportKeys <;> infer_instance

instance {address : SignPltContext} : Built .reads (pltAddressText address) := by
  unfold pltAddressText
  refine .bind inferInstance fun a => ?_
  split <;> infer_instance

instance {plt : SignPltContext} : Built .reads (formatPltDisplay plt) := by
  unfold formatPltDisplay; infer_instance

instance {counter : UInt32} {address : Buf 65} :
    Built .reads (blsComputeAddress counter address) := by
  unfold blsComputeAddress
  refine .ask (fun _ _ _ => rfl) fun w => ?_
  refine .bind inferInstance fun prf => ?_
  split <;> infer_instance

end Reads

/-! ## What programs leave alone -/

/-- `INSTRUCTION_NONE`, or the instruction that holds the latch. -/
def World.latch (w : World) : Option UInt8 := w.txState.currentInstruction

/-- Only replies, screens, the latch and the trusted-name handlers change
    these. -/
structure Outside (s t : World) : Prop where
  latch : t.latch = s.latch := by rfl
  screen : t.screen = s.screen := by rfl
  replyPending : t.replyPending = s.replyPending := by rfl
  trusted : t.trusted = s.trusted := by rfl
  storedChallenge : t.storedChallenge = s.storedChallenge := by rfl
  rngCalls : t.rngCalls = s.rngCalls := by rfl

omit [Platform] in
theorem Outside.trans {s t u : World} (h : Outside s t) (h' : Outside t u) : Outside s u where
  latch := h'.latch.trans h.latch
  screen := h'.screen.trans h.screen
  replyPending := h'.replyPending.trans h.replyPending
  trusted := h'.trusted.trans h.trusted
  storedChallenge := h'.storedChallenge.trans h.storedChallenge
  rngCalls := h'.rngCalls.trans h.rngCalls

/-- The flow goes on: bytes may have been fed to the transaction hash, each
    piece logged, and the path is the same. -/
structure Calm (s t : World) : Prop extends Outside s t where
  path : t.derivationPath = s.derivationPath
  fed : ∃ pieces : List Bytes, t.log = s.log ++ pieces.map .hashUpdate ∧
    t.txState.hash = s.txState.hash ++ pieces.flatten

omit [Platform] in
instance : IsPreorder World Calm where
  refl _ := ⟨{}, rfl, [], by simp⟩
  trans := by
    rintro s t u ⟨hst, pst, ps, hls, hhs⟩ ⟨htu, ptu, pt, hlt, hht⟩
    refine ⟨hst.trans htu, ptu.trans pst, ps ++ pt, ?_, ?_⟩
    · rw [hlt, hls]; simp
    · rw [hht, hhs]; simp

/-- The events of a flow: the path and the transaction hash. -/
def Event.isFlow : Event → Bool
  | .path _ | .parsed _ | .hashInit | .hashUpdate _ => true
  | _ => false

/-- Only the flow has changed. -/
structure Inner (s t : World) : Prop extends Outside s t where
  log : ∃ events, t.log = s.log ++ events ∧ ∀ e ∈ events, e.isFlow

omit [Platform] in
instance : IsPreorder World Inner where
  refl _ := ⟨{}, [], by simp⟩
  trans := by
    rintro s t u ⟨hst, es, hls, hes⟩ ⟨htu, et, hlt, het⟩
    refine ⟨hst.trans htu, es ++ et, by rw [hlt, hls]; simp, ?_⟩
    simpa [or_imp, forall_and] using ⟨hes, het⟩

omit [Platform] in
theorem Calm.inner {s t : World} (h : Calm s t) : Inner s t := by
  obtain ⟨ho, -, pieces, hl, -⟩ := h
  exact ⟨ho, _, hl, by simp [Event.isFlow]⟩

omit [Platform] in
instance (priority := low) {α : Type} {x : App α} [h : Frames Calm x] : Frames Inner x :=
  h.mono fun _ _ => Calm.inner

omit [Platform] in
theorem calm_modify {f : World → World} (ho : ∀ s, Outside s (f s))
    (hp : ∀ s, (f s).derivationPath = s.derivationPath) (hl : ∀ s, (f s).log = s.log)
    (hh : ∀ s, (f s).txState.hash = s.txState.hash) : Frames Calm (modify f : App PUnit) :=
  ⟨fun s => ⟨ho s, hp s, [], by simp [hl s], by simp [hh s]⟩⟩

omit [Platform] in
instance {b : Bool} :
    Frames Calm (modify fun w => { w with publicKeyReviewPending := b } : App PUnit) :=
  calm_modify (fun _ => {}) (fun _ => rfl) (fun _ => rfl) fun _ => rfl

omit [Platform] in
instance : Frames Calm
    (modify fun w => { w with reviewedPath := w.derivationPath } : App PUnit) :=
  calm_modify (fun _ => {}) (fun _ => rfl) (fun _ => rfl) fun _ => rfl

theorem header_calm (cdata : Bytes) (kind : UInt8) :
    Frames Calm (hashAccountTransactionHeaderAndKind cdata kind) := by
  have hupdate (bs : Bytes) : Frames Calm (updateHash bs) :=
    ⟨fun s => ⟨{}, rfl, [bs], by simp, by simp⟩⟩
  have hset (a : AccountSender) :
      Frames Calm (modify fun w => { w with accountSender := a } : App PUnit) :=
    calm_modify (fun _ => {}) (fun _ => rfl) (fun _ => rfl) fun _ => rfl
  unfold hashAccountTransactionHeaderAndKind hashHeaderAndType
  infer_instance

omit [Platform] in
theorem inner_of_event {x : App Unit} {e : Event} {s t : World} (hx : x s = .ok () t)
    (ho : Outside s t) (hlog : t.log = s.log ++ [e]) (he : e.isFlow) :
    wp x (fun _ t => Inner s t) (fun _ t => Inner s t) s := by
  unfold wp
  rw [hx]
  exact ⟨ho, [e], hlog, by simpa using he⟩

/-- What the powers up to a flow change, with `R`, `R'` and `R''` for the others. -/
def family (R R' R'' : World → World → Prop) : Power → World → World → Prop
  | .reads => Eq
  | .calm => Calm
  | .flow => Inner
  | .frees => R
  | .acknowledges => R'
  | .replies => R''

theorem Primitive.frames_flow {R R' R'' : World → World → Prop} {p : Power} {α : Type} {x : App α}
    (h : Primitive p x) (hp : p.ctorIdx ≤ Power.flow.ctorIdx) :
    Frames (family R R' R'' p) x := by
  cases h with
  | getCtx => exact ⟨fun _ => rfl⟩
  | header cdata kind => exact header_calm cdata kind
  | setCtx | comparePublicKey =>
    exact calm_modify (fun _ => {}) (fun _ => rfl) (fun _ => rfl) fun _ => rfl
  | updateHash bs => exact ⟨fun s => ⟨{}, rfl, [bs], by simp, by simp⟩⟩
  | sha256Init | setDerivationPath | parsed =>
    exact ⟨fun s => inner_of_event rfl {} rfl rfl⟩
  | _ => exact absurd hp (by decide)

/-- A family that each power above a flow extends by its own primitives. -/
theorem Built.frames_family {R R' R'' : World → World → Prop} [IsPreorder World R]
    [IsPreorder World R'] [IsPreorder World R''] (hinner : ∀ s t, Inner s t → R s t)
    (hR : ∀ s t, R s t → R' s t) (hR' : ∀ s t, R' s t → R'' s t)
    (hfrees : ∀ (α : Type) (x : App α), Primitive .frees x → Frames R x)
    (hacks : ∀ (α : Type) (x : App α), Primitive .acknowledges x → Frames R' x)
    (hreplies : ∀ (α : Type) (x : App α), Primitive .replies x → Frames R'' x)
    {p : Power} {α : Type} {x : App α} (h : Built p x) : Frames (family R R' R'' p) x := by
  refine h.frames (fun p => ?_) (fun p s t hst => ?_) fun p α x hx => ?_
  · cases p <;> unfold family <;> infer_instance
  · cases p with
    | reads => exact (show s = t from hst) ▸ refl_of Calm s
    | calm => exact Calm.inner hst
    | flow => exact hinner s t hst
    | frees => exact hR s t hst
    | acknowledges => exact hR' s t hst
    | replies => exact hst
  · by_cases hp : p.ctorIdx ≤ Power.flow.ctorIdx
    · exact hx.frames_flow hp
    · cases p with
      | reads | calm | flow => exact absurd (by decide) hp
      | frees => exact hfrees α x hx
      | acknowledges => exact hacks α x hx
      | replies => exact hreplies α x hx

theorem Built.frames_flow {p : Power} {α : Type} {x : App α} (h : Built p x) :
    Frames (family Anything Anything Anything p) x :=
  have up {R : World → World → Prop} (s t : World) (_ : R s t) : Anything s t := trivial
  h.frames_family up up up (fun _ x _ => frames_anything x) (fun _ x _ => frames_anything x)
    fun _ x _ => frames_anything x

instance {α : Type} {x : App α} [h : Built .calm x] : Frames Calm x := h.frames_flow

instance {α : Type} {x : App α} [h : Built .flow x] : Frames Inner x := h.frames_flow

/-! ## Programs that feed the transaction hash -/

instance {α : Type} [Union.Member InstructionContext α] {c : α} : Built .calm (setCtx c) :=
  .primitive (.setCtx c)

instance {bs : Bytes} : Built .calm (updateHash bs) := .primitive (.updateHash bs)

instance {c : ComparePublicKey} :
    Built .calm (modify fun w => { w with comparePublicKey := c } : App PUnit) :=
  .primitive (.comparePublicKey c)

instance {α : Type} [Union.Member InstructionContext α] {f : α → α} :
    Built .calm (modifyCtx f) := by
  unfold modifyCtx; infer_instance

instance {cdata : Bytes} {kind : UInt8} :
    Built .calm (hashAccountTransactionHeaderAndKind cdata kind) := .primitive (.header cdata kind)

instance {cdata : Bytes} {n : ℕ} : Built .calm (hashField cdata n) := by
  unfold hashField; infer_instance

instance {cdata : Bytes} {dst : Buf 97} : Built .calm (hashHexField cdata dst) := by
  unfold hashHexField; infer_instance

instance {has : Bool} {text : Buf 8} {cdata : Bytes} : Built .calm (bakerRate has text cdata) := by
  unfold bakerRate; infer_instance

instance {ctx : SignConfigureBaker} {cdata : Bytes} : Built .calm (bakerCapital ctx cdata) := by
  unfold bakerCapital; infer_instance

instance {ctx : SignConfigureBaker} {cdata : Bytes} : Built .calm (bakerRestake ctx cdata) := by
  unfold bakerRestake; infer_instance

instance {ctx : SignConfigureBaker} {cdata : Bytes} :
    Built .calm (bakerOpenForDelegation ctx cdata) := by
  unfold bakerOpenForDelegation; infer_instance

instance {ctx : SignConfigureBaker} {cdata : Bytes} : Built .calm (bakerKeys ctx cdata) := by
  unfold bakerKeys; infer_instance

instance {has : Bool} {ctx : SignConfigureBaker} {cdata : Bytes}
    {field : SignConfigureBaker → Bytes → App (SignConfigureBaker × Bytes)}
    [∀ ctx cdata, Built .calm (field ctx cdata)] :
    Built .calm (bakerField has field ctx cdata) := by
  unfold bakerField; infer_instance

instance : Built .calm takeFirstDisplay := by unfold takeFirstDisplay; infer_instance

instance {ctx : SignConfigureDelegationContext} {cdata : Bytes} :
    Built .calm (delegationCapital ctx cdata) := by
  unfold delegationCapital; infer_instance

instance {ctx : SignConfigureDelegationContext} {cdata : Bytes} :
    Built .calm (delegationRestake ctx cdata) := by
  unfold delegationRestake; infer_instance

instance {ctx : SignConfigureDelegationContext} {cdata : Bytes} :
    Built .calm (delegationTarget ctx cdata) := by
  unfold delegationTarget; infer_instance

instance {tx : SignTransferWithScheduleContext} : Built .calm (readScheduledAmount tx) := by
  unfold readScheduledAmount; infer_instance

instance {isInitialCall : Bool} : Built .calm (scheduleStart isInitialCall) := by
  unfold scheduleStart; infer_instance

instance {ctx : SignCredentialDeploymentContext} {buffer : Bytes} :
    Built .calm (parseVerificationKey ctx buffer) := by
  unfold parseVerificationKey; infer_instance

instance : Built .calm composeExportPrivateKeyTitles := by
  unfold composeExportPrivateKeyTitles; infer_instance

/-! ## Programs that open a flow -/

instance : Built .flow sha256Init := .primitive .sha256Init

instance {dp : DerivationPath} : Built .flow (setDerivationPath dp) :=
  .primitive (.setDerivationPath dp)

instance {dp : DerivationPath} : Built .flow (record (.parsed dp)) := .primitive (.parsed dp)

instance {cdata : Bytes} : Built .flow (parseDerivationPath cdata) := by
  unfold parseDerivationPath; infer_instance

instance {cdata : Bytes} : Built .flow (parseDerivationPathFull cdata) := by
  unfold parseDerivationPathFull; infer_instance

instance {cmd : Command} : Built .flow (parseKeyPath cmd) := by
  unfold parseKeyPath; infer_instance

instance {getKey : DerivationPath → App (Buf 32)} [∀ dp, Built .reads (getKey dp)] {n k : ℕ} :
    Built .flow (exportLegacyKeys getKey n k) := by
  induction n generalizing k with
  | zero => unfold exportLegacyKeys; infer_instance
  | succ n _ =>
    unfold exportLegacyKeys
    refine .ask (fun _ _ _ => rfl) fun _ => .bind inferInstance fun _ => ?_
    exact .ask (fun _ _ _ => rfl) fun _ => inferInstance

end Concordium
