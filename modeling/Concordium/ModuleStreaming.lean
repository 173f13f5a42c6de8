/-
  How the source of a module is streamed.

  The first packet of DEPLOY_MODULE declares the length of the source, and the
  others bring it.  The review is drawn when the declared length has arrived,
  and shows the digest of what was hashed.
-/
import Concordium.ContractCalls

namespace Concordium

open Buffer Union Wp Runs

section Module
variable [Platform] {cmd : Command} {s t w : World}

/-- The source has arrived as far as `got`; what was hashed in front of it ends
    with its length. -/
structure ModuleStream (base got : Bytes) (w : World) : Prop where
  base_length : base.length = 69
  fits : got.length ≤ beNat (base.drop 65)
  remaining : (w.global.view DeployModule).remainingSourceLength =
    beNat (base.drop 65) - got.length
  digest : (w.global.view DeployModule).sourceHashCtx = got
  hashed : w.txState.hash = base ++ got

/-- The DEPLOY_MODULE review. -/
def moduleReview (w : World) : List Row :=
  accountReview (line "Review Transaction \nto deploy module" "")
    (line "Review transaction to" "deploy module") "Sender" "Sign transaction\nto deploy module"
    w.accountSender [row "Version" (w.global.view DeployModule).versionDisplay.text,
      row "Module hash" (w.global.view DeployModule).sourceHashDisplay.text]

theorem wp_uiDeployModuleDisplay {Q : Unit → World → Prop} {E : Exception → World → Prop} :
    wp uiDeployModuleDisplay Q E s = Q () (s.reviewed (moduleReview s)) := by
  unfold uiDeployModuleDisplay
  simp only [wp_bind, wp_getCtx, wp_get]
  cases hb : (Platform.backend : Backend) with
  | nbgl =>
    simp only [nbglSignReview, nbglReview, wp_showScreen, moduleReview, accountReview, hb]
    rfl
  | bagl =>
    simp only [wp_showScreen, moduleReview, accountReview, hb]
    rfl

/-- The review of a whole source is on screen: it shows its digest. -/
structure ModuleReviewing (base got : Bytes) (w : World) : Prop where
  stream : ModuleStream base got w
  complete : got.length = beNat (base.drop 65)
  actions : w.screen.actions = signFlowShared
  rows : w.screen.rows = moduleReview w
  digest : row "Module hash" (hexUpper (Platform.sha256 got).bytes) ∈ w.screen.rows

theorem moduleHash_mem (w : World) :
    row "Module hash" (w.global.view DeployModule).sourceHashDisplay.text ∈ moduleReview w := by
  unfold moduleReview accountReview
  cases (Platform.backend : Backend) <;> simp

theorem ModuleStream.still {base got : Bytes} (h : ModuleStream base got s) (hst : Still s t) :
    ModuleStream base got t := by
  rw [hst]
  exact ⟨h.base_length, h.fits, h.remaining, h.digest, h.hashed⟩

/-! ## Packets -/

/-- The first packet declares the length. -/
theorem wp_deployModuleInitial :
    wp (deployModuleInitial cmd) (fun _ t => t.replyPending = false ∧ t.latch = s.latch ∧
      ∃ base, ModuleStream base [] t) (fun _ _ => True) s := by
  unfold deployModuleInitial
  rw [wp_bind]
  refine wp_openContract fun account dp log header cdata hheader => ?_
  simp only [wp_bind, wp_getCtx, wp_throwIf, wp_slice, wp_updateHash, wp_u4be, List.drop_zero,
    implies_true, true_and, and_true]
  intro hlen _ _ _
  refine wp_reads _ (fun text _ => ?_) fun _ _ => trivial
  simp only [wp_bind, wp_memmove, wp_setCtx, implies_true, and_true]
  intro _
  refine ⟨rfl, rfl, header ++ [kindDeployModule] ++ cdata.take 8, ?_, Nat.zero_le _, ?_, ?_, ?_⟩
  · simp only [List.length_append, List.length_take, List.length_singleton, hheader.length]
    omega
  · have hdrop : (header ++ [kindDeployModule] ++ cdata.take 8).drop 65 =
        (cdata.drop 4).take 4 := by
      have hfront : (header ++ [kindDeployModule]).length = 61 := by simp [hheader.length]
      rw [List.drop_append, hfront, List.drop_eq_nil_of_le (by omega), List.nil_append,
        List.drop_take]
    rw [hdrop]
    exact congrArg DeployModule.remainingSourceLength (InstructionContext.view_inject _)
  · exact congrArg DeployModule.sourceHashCtx (InstructionContext.view_inject _)
  · exact (List.append_nil _).symm

theorem dispatch_deployModule {isInitialCall : Bool} (hins : cmd.ins = insDeployModule) :
    dispatchInstruction cmd isInitialCall =
      withData cmd (handleDeployModule cmd isInitialCall) := by
  unfold dispatchInstruction
  rw [hins]
  rfl

/-- The source behind a packet; `none` when the packet is not taken. -/
def moduleFeed (base got : Bytes) (cmd : Command) : Option Bytes :=
  if cmd.p1 = Contract.p1Source ∧ got.length + cmd.data.length ≤ beNat (base.drop 65) then
    some (got ++ cmd.data)
  else none

/-- A packet behind the first one. -/
theorem wp_moduleNext {base got : Bytes} {isInitialCall : Bool} {Q : Unit → World → Prop}
    {E : Exception → World → Prop} (h : ModuleStream base got s) (hins : cmd.ins = insDeployModule)
    (hc : cmd.data ≠ []) (hnext : ¬ (cmd.p1 = Contract.p1Initial ∧ isInitialCall))
    (hmore : ∀ got' g, moduleFeed base got cmd = some got' →
      got'.length < beNat (base.drop 65) → ModuleStream base got' (s.streamedOn cmd.data g) →
      Q () (s.streamedOn cmd.data g))
    (hreview : ∀ got' t, moduleFeed base got cmd = some got' → t.latch = s.latch →
      t.replyPending = s.replyPending → ModuleReviewing base got' t → Q () t)
    (hthrow : moduleFeed base got cmd = none → ∀ sw, sw ≠ swoSuccess → E (.statusWord sw) s) :
    wp (dispatchInstruction cmd isInitialCall) Q E s := by
  have hlc : 0 < cmd.data.length := List.length_pos_iff.mpr hc
  have hfits := h.fits
  have hremaining := h.remaining
  have stream {ctx : DeployModule} {t : World} (hg : t.global = Member.inject ctx)
      (hr : ctx.remainingSourceLength = beNat (base.drop 65) - (got ++ cmd.data).length)
      (hd : ctx.sourceHashCtx = got ++ cmd.data) (hle : (got ++ cmd.data).length ≤
        beNat (base.drop 65)) (ht : t.txState.hash = s.txState.hash ++ cmd.data) :
      ModuleStream base (got ++ cmd.data) t := by
    have hview : t.global.view DeployModule = ctx := by
      rw [hg]
      exact InstructionContext.view_inject _
    refine ⟨h.base_length, hle, ?_, ?_, ?_⟩
    · rw [hview, hr]
    · rw [hview, hd]
    · rw [ht, h.hashed, List.append_assoc]
  rw [dispatch_deployModule hins]
  unfold withData handleDeployModule
  refine wp_if (fun hlc => absurd (List.length_eq_zero_iff.mp hlc) hc) fun _ => ?_
  refine wp_if (fun hp => absurd hp hnext) fun _ => ?_
  rw [wp_bind, wp_getCtx]
  refine wp_if (fun ⟨hp1, hopen⟩ => ?_) fun hno => ?_
  · unfold deployModuleSource
    rw [wp_bind, wp_getCtx, wp_bind, wp_throwIf]
    refine ⟨fun hover => hthrow (if_neg fun hle => ?_) _ (by decide), fun hle => ?_⟩
    · have := hle.2
      omega
    · have hle : got.length + cmd.data.length ≤ beNat (base.drop 65) := by omega
      have hfeed : moduleFeed base got cmd = some (got ++ cmd.data) := if_pos ⟨hp1, hle⟩
      have hlength : (got ++ cmd.data).length = got.length + cmd.data.length :=
        List.length_append
      rw [wp_bind, wp_updateHash]
      refine wp_if (fun hleft => ?_) fun hdone => ?_
      · rw [wp_bind, wp_setCtx]
        refine hmore _ _ hfeed (by omega) (stream rfl ?_ ?_ (hlength ▸ hle) rfl)
        · exact (congrArg (· - _) hremaining).trans (by omega)
        · exact congrArg (· ++ _) h.digest
      · rw [wp_bind]
        refine wp_formatHexInto (by rw [Buf.bytes_length]) fun display hdisplay => ?_
        rw [wp_bind, wp_setCtx, wp_uiDeployModuleDisplay]
        refine hreview _ _ hfeed rfl rfl
          ⟨stream rfl ?_ ?_ (hlength ▸ hle) rfl, by omega, rfl, rfl, ?_⟩
        · exact (congrArg (· - _) hremaining).trans (by omega)
        · exact congrArg (· ++ _) h.digest
        · refine (congrArg (row "Module hash" · ∈ _) ?_).mp (moduleHash_mem _)
          rw [InstructionContext.view_inject, hdisplay, h.digest]
  · refine hthrow (if_neg fun hle => hno ⟨hle.1, ?_⟩) _ (by decide)
    have := hle.2
    omega

theorem wp_moduleUnopened {isInitialCall : Bool} {Q : Unit → World → Prop}
    {E : Exception → World → Prop} (hins : cmd.ins = insDeployModule) (hc : cmd.data ≠ [])
    (hnext : ¬ (cmd.p1 = Contract.p1Initial ∧ isInitialCall))
    (h : (s.global.view DeployModule).remainingSourceLength = 0)
    (hthrow : ∀ sw, sw ≠ swoSuccess → E (.statusWord sw) s) :
    wp (dispatchInstruction cmd isInitialCall) Q E s := by
  rw [dispatch_deployModule hins]
  unfold withData handleDeployModule
  refine wp_if (fun hlc => absurd (List.length_eq_zero_iff.mp hlc) hc) fun _ => ?_
  refine wp_if (fun hp => absurd hp hnext) fun _ => ?_
  rw [wp_bind, wp_getCtx]
  refine wp_if (fun hp => absurd h hp.2.ne') fun _ => hthrow _ (by decide)

/-! ## The flow -/

/-- The packets of the flow have opened a stream and brought `got`. -/
def ModuleReceived (ps : List Command) (got : Bytes) : Prop :=
  ∃ first rest, ps = first :: rest ∧ got = rest.flatMap Command.data

omit [Platform] in
theorem ModuleReceived.snoc {ps : List Command} {got : Bytes} (h : ModuleReceived ps got) :
    ModuleReceived (ps ++ [cmd]) (got ++ cmd.data) := by
  obtain ⟨first, rest, rfl, rfl⟩ := h
  exact ⟨first, rest ++ [cmd], rfl, by rw [List.flatMap_append, List.flatMap_singleton]⟩

/-- Only empty packets so far. -/
structure ModuleUnopened (ps : List Command) (w : World) : Prop where
  empty : ∀ cmd ∈ ps, cmd.data = []
  remaining : (w.global.view DeployModule).remainingSourceLength = 0

/-- Between packets: source is missing, or none was declared. -/
def ModuleBetween (ps : List Command) (w : World) : Prop :=
  ModuleUnopened ps w ∨ ∃ base got, ModuleReceived ps got ∧ ModuleStream base got w ∧
    (got.length = beNat (base.drop 65) → got = [])

/-- The packets of a deployment are under review. -/
def ModuleUnderReview (ps : List Command) (w : World) : Prop :=
  ∃ base got, ModuleReceived ps got ∧ ModuleReviewing base got w ∧ got ≠ []

theorem ModuleReceived.flowing {ps : List Command} {base got : Bytes}
    (hr : ModuleReceived ps got) (h : ModuleStream base got s) (hins : cmd.ins = insDeployModule)
    (hc : cmd.data ≠ []) (hp : s.replyPending = true) :
    wp (dispatchInstruction cmd false)
      (fun _ t => Flowing insDeployModule (ModuleBetween (ps ++ [cmd]))
        (ModuleUnderReview (ps ++ [cmd])) t) (fun _ _ => True) s := by
  have fed {got' : Bytes} (hfeed : moduleFeed base got cmd = some got') :
      ModuleReceived (ps ++ [cmd]) got' := by
    unfold moduleFeed at hfeed
    split_ifs at hfeed
    exact Option.some.inj hfeed ▸ hr.snoc
  refine wp_moduleNext h hins hc (fun h => absurd h.2 Bool.false_ne_true)
    (fun got' g hfeed hlt hs => ?_) (fun got' t hfeed _ htp ht => ?_) fun _ _ _ => trivial
  · exact .of_between rfl (.inr ⟨base, got', fed hfeed, hs, fun heq => absurd heq hlt.ne⟩)
  · refine .of_review (htp.trans hp) ⟨base, got', fed hfeed, ht, ?_⟩
    unfold moduleFeed at hfeed
    split_ifs at hfeed
    obtain rfl := Option.some.inj hfeed
    exact List.append_ne_nil_of_right_ne_nil _ hc

theorem moduleRules : FlowRules insDeployModule ModuleBetween ModuleUnderReview where
  still ps s t hst _ _ hI := by
    rcases hI with h | ⟨base, got, hr, hs, hlt⟩
    · refine .inl ⟨h.empty, ?_⟩
      rw [hst]
      exact h.remaining
    · exact .inr ⟨base, got, hr, hs.still hst, hlt⟩
  first cmd s hins hl hp hz _ _ _ := by
    have hfresh : (s.global.view DeployModule).remainingSourceLength = 0 := by
      rw [hz, InstructionContext.view_zeroed]
      rfl
    by_cases hc : cmd.data = []
    · rw [dispatch_deployModule hins]
      refine wp_withData (fun _ => .of_between rfl (.inl ⟨fun c hc' => ?_, hfresh⟩))
        fun h => absurd hc h
      rw [List.mem_singleton.mp hc', hc]
    · by_cases hfirst : cmd.p1 = Contract.p1Initial
      · rw [dispatch_deployModule hins]
        refine wp_withData (fun h => absurd h hc) fun _ => wp_if (fun _ => ?_)
          fun h => absurd ⟨hfirst, rfl⟩ h
        refine wp_mono (fun _ t ht => ?_) (fun _ _ h => h) wp_deployModuleInitial
        obtain ⟨hp, -, base, hs⟩ := ht
        exact .of_between hp (.inr ⟨base, [], ⟨cmd, [], rfl, rfl⟩, hs, fun _ => rfl⟩)
      · exact wp_moduleUnopened hins hc (fun h => hfirst h.1) hfresh fun _ _ => trivial
  next ps cmd s hins hl hp hI := by
    by_cases hc : cmd.data = []
    · rw [dispatch_deployModule hins]
      refine wp_withData (fun _ => .of_between rfl ?_) fun h => absurd hc h
      rcases hI with h | ⟨base, got, hr, hs, hlt⟩
      · refine .inl ⟨fun c hmem => ?_, h.remaining⟩
        rcases List.mem_append.mp hmem with hmem | hmem
        · exact h.empty c hmem
        · rw [List.mem_singleton.mp hmem, hc]
      · refine .inr ⟨base, got, ?_, hs.still rfl, hlt⟩
        have hr' : ModuleReceived (ps ++ [cmd]) (got ++ cmd.data) := hr.snoc
        rwa [hc, List.append_nil] at hr'
    · rcases hI with h | ⟨base, got, hr, hs, -⟩
      · exact wp_moduleUnopened hins hc (fun h => absurd h.2 Bool.false_ne_true) h.remaining
          fun _ _ => trivial
      · exact hr.flowing hs hins hc hp
  answer ps c s hc hl hp hr := by
    obtain ⟨_, _, -, hr, -⟩ := hr
    exact wp_mono (fun _ _ ht => .of_free ht) (fun _ _ hE => hE)
      (wp_signFlowShared (hr.actions ▸ hc))

/-! ## Every run -/

/-- A packet that does not continue the source is refused. -/
theorem ModuleStream.refuses {base got : Bytes} (h : ModuleStream base got w)
    (hl : w.latch = some insDeployModule) (hins : cmd.ins = insDeployModule)
    (hno : cmd.data = [] ∨ moduleFeed base got cmd = none) : Refuses w cmd := by
  refine refuses_packet (hins ▸ hl) (dispatch_deployModule hins) fun hc => ?_
  have hnone := hno.resolve_left hc
  have hs : ModuleStream base got (w.delivered.arrived cmd.ins) := h.still rfl
  refine wp_moduleNext hs hins hc (fun h => absurd h.2 Bool.false_ne_true)
    (fun got' g hfeed => ?_) (fun got' t hfeed => ?_) fun _ sw hsw => ⟨rfl, sw, hsw, rfl⟩
  · cases hnone.symm.trans hfeed
  · cases hnone.symm.trans hfeed

/-- A packet that continues the source is taken; the one that completes it leads
    to the review. -/
theorem ModuleStream.takes {base got got' : Bytes} (h : ModuleStream base got w)
    (hl : w.latch = some insDeployModule) (hp : w.replyPending = false)
    (hins : cmd.ins = insDeployModule) (hc : cmd.data ≠ [])
    (hfeed : moduleFeed base got cmd = some got') :
    ∃ w', step w (.apdu cmd) = some w' ∧ w'.latch = some insDeployModule ∧
      (w'.replyPending = true ↔ got'.length = beNat (base.drop 65)) := by
  have hs : ModuleStream base got (w.delivered.arrived cmd.ins) := h.still rfl
  refine step_next (hins ▸ hl) hp (wp_moduleNext hs hins hc
    (fun h => absurd h.2 Bool.false_ne_true) (fun got'' g hfeed' hlt _ => ⟨hl, ?_⟩)
    (fun got'' t hfeed' htl htp ht => ⟨htl.trans hl, ?_⟩) fun hnone => ?_)
  · obtain rfl := Option.some.inj (hfeed.symm.trans hfeed')
    exact ⟨fun h => absurd h Bool.false_ne_true, fun h => absurd h hlt.ne⟩
  · obtain rfl := Option.some.inj (hfeed.symm.trans hfeed')
    exact ⟨fun _ => ht.complete, fun _ => htp⟩
  · cases hnone.symm.trans hfeed

/-- How DEPLOY_MODULE stands after its packets, and what becomes of the next
    one. -/
structure ModuleStands (base got : Bytes) (w : World) : Prop where
  stream : ModuleStream base got w
  /-- A review is owed its answer exactly when all of a source is there. -/
  review : w.replyPending = true ↔ got ≠ [] ∧ got.length = beNat (base.drop 65)
  reviewing : w.replyPending = true → ModuleReviewing base got w
  refuses : ∀ cmd, cmd.ins = insDeployModule →
    cmd.data = [] ∨ moduleFeed base got cmd = none → Refuses w cmd
  takes : ∀ cmd got', cmd.ins = insDeployModule → cmd.data ≠ [] →
    moduleFeed base got cmd = some got' →
    ∃ w', step w (.apdu cmd) = some w' ∧ w'.latch = some insDeployModule ∧
      (w'.replyPending = true ↔ got'.length = beNat (base.drop 65))

/-- Nothing has been opened, and nothing is taken. -/
structure ModuleIdle (packets : List Command) (w : World) : Prop where
  empty : ∀ cmd ∈ packets, cmd.data = []
  reply : w.replyPending = false
  refuses : ∀ cmd, cmd.ins = insDeployModule → Refuses w cmd

theorem module_streaming {inputs : List Input}
    (hgate : Along Concordium.step Answers World.start inputs)
    (hrun : runInputs World.start inputs = some w) (hl : w.latch = some insDeployModule) :
    ModuleIdle (openPackets inputs) w ∨
      ∃ base got, ModuleReceived (openPackets inputs) got ∧ ModuleStands base got w := by
  have hflow := moduleRules.run hgate hrun
  have stands {base got : Bytes} (hs : ModuleStream base got w)
      (hreview : w.replyPending = true ↔ got ≠ [] ∧ got.length = beNat (base.drop 65))
      (hr : w.replyPending = true → ModuleReviewing base got w) : ModuleStands base got w := by
    refine ⟨hs, hreview, hr, fun cmd hins hno => hs.refuses hl hins hno,
      fun cmd got' hins hc hfeed => hs.takes hl ?_ hins hc hfeed⟩
    rw [← Bool.not_eq_true]
    intro hp
    unfold moduleFeed at hfeed
    split_ifs at hfeed with hfits
    have := (hreview.mp hp).2
    have := List.length_pos_iff.mpr hc
    omega
  rcases Bool.eq_false_or_eq_true w.replyPending with hp | hp
  · obtain ⟨base, got, hgot, hr, hne⟩ := hflow.review hl hp
    exact .inr ⟨base, got, hgot, stands hr.stream ⟨fun _ => ⟨hne, hr.complete⟩, fun _ => hp⟩
      fun _ => hr⟩
  · rcases hflow.between hl hp with h | ⟨base, got, hgot, hs, hlt⟩
    · refine .inl ⟨h.empty, hp, fun cmd hins => ?_⟩
      exact refuses_packet (hins ▸ hl) (dispatch_deployModule hins) fun hc =>
        wp_moduleUnopened (s := w.delivered.arrived cmd.ins) hins hc
          (fun h => absurd h.2 Bool.false_ne_true) h.remaining fun sw hsw => ⟨rfl, sw, hsw, rfl⟩
    · refine .inr ⟨base, got, hgot, stands hs ⟨fun h => ?_, fun h => ?_⟩ fun h => ?_⟩
      · exact absurd (hp.symm.trans h) Bool.false_ne_true
      · exact absurd (hlt h.2) h.1
      · exact absurd (hp.symm.trans h) Bool.false_ne_true

end Module

end Concordium
