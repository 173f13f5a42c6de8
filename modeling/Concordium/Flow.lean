/-
  Signing flows, read off the event log.

  `SigningFlow log ins path preimage`: the log ends in a flow of instruction
  `ins` that is still open.  One packet of `ins` parsed `path` and started the
  hash, and `preimage` is what that packet and later packets of `ins` fed to
  it.  `Stage` names the states a packet passes through on the way to such a
  flow, and `Moves` says which stage a program leads to; instance search finds
  it from the program's text.
-/
import Concordium.Frame

namespace Concordium

open Buffer Wp

set_option synthInstance.maxSize 1000000
set_option synthInstance.maxHeartbeats 100000

/-! ## The log of a flow -/

/-- The bytes fed to the transaction hash by some events. -/
def fed (events : List Event) : Bytes :=
  events.flatMap fun | .hashUpdate bs => bs | _ => []

@[simp] theorem fed_append (a b : List Event) : fed (a ++ b) = fed a ++ fed b := by
  simp [fed]

@[simp] theorem fed_pieces (pieces : List Bytes) :
    fed (pieces.map .hashUpdate) = pieces.flatten := by
  induction pieces with
  | nil => rfl
  | cons p ps ih => simpa [fed] using ih

/-- The path, as the last event that writes it parsed it. -/
def Parses (events : List Event) (path : DerivationPath) : Prop :=
  ∃ a b, events = a ++ .parsed path :: b ∧ ∀ p, .path p ∉ b

/-- The hash was started, and fed `preimage` since. -/
def Hashes (events : List Event) (preimage : Bytes) : Prop :=
  ∃ a b, events = a ++ .hashInit :: b ∧ .hashInit ∉ b ∧ preimage = fed b

/-- The events that may follow while a flow of `ins` stays open. -/
def Event.continues (ins : UInt8) : Event → Bool
  | .packet i => i == ins
  | .hashUpdate _ | .delivered | .reply .. | .drawn _ | .activated _ => true
  | _ => false

section Continues
variable {ins : UInt8}

@[simp] theorem Event.continues_hashUpdate {bs : Bytes} :
    (Event.hashUpdate bs).continues ins = true := rfl

@[simp] theorem Event.continues_packet {i : UInt8} :
    (Event.packet i).continues ins = (i == ins) := rfl

@[simp] theorem Event.continues_signed {i : Option UInt8} {path : DerivationPath} {bs : Bytes} :
    (Event.signed i path bs).continues ins = false := rfl

end Continues

/-- The log ends in an open flow of `ins`. -/
def SigningFlow (log : List Event) (ins : UInt8) (path : DerivationPath) (preimage : Bytes) :
    Prop :=
  ∃ before opening later first, log = before ++ .packet ins :: (opening ++ later) ∧
    (∀ e ∈ opening, e.isFlow) ∧ Parses opening path ∧ Hashes opening first ∧
    (∀ e ∈ later, e.continues ins) ∧ preimage = first ++ fed later

theorem SigningFlow.append {log : List Event} {ins : UInt8} {path : DerivationPath}
    {preimage : Bytes} (h : SigningFlow log ins path preimage) {events : List Event}
    (he : ∀ e ∈ events, e.continues ins) :
    SigningFlow (log ++ events) ins path (preimage ++ fed events) := by
  obtain ⟨before, opening, later, first, rfl, ho, hp, hh, hl, rfl⟩ := h
  refine ⟨before, opening, later ++ events, first, by simp, ho, hp, hh, ?_, by simp⟩
  simpa [or_imp, forall_and] using ⟨hl, he⟩

/-- Between two signatures the hash is started again. -/
theorem SigningFlow.hashInit_after {log : List Event} {ins : UInt8} {path : DerivationPath}
    {preimage : Bytes} (h : SigningFlow log ins path preimage) {pre post : List Event}
    {ins' : Option UInt8} {path' : DerivationPath} {preimage' : Bytes}
    (hlog : log = pre ++ .signed ins' path' preimage' :: post) : .hashInit ∈ post := by
  obtain ⟨before, opening, later, first, rfl, ho, -, ⟨a, b, rfl, -⟩, hl, -⟩ := h
  set rest := a ++ .hashInit :: b ++ later with hrest
  have hmem : ∀ e ∈ rest, e ≠ .signed ins' path' preimage' := by
    rintro e he rfl
    rcases List.mem_append.mp he with he | he
    · simpa [Event.isFlow] using ho _ he
    · simpa using hl _ he
  -- The signature stands before the packet that opened the flow.
  rw [List.append_eq_append_iff] at hlog
  obtain ⟨c, rfl, hc⟩ | ⟨c, rfl, hc⟩ := hlog
  · cases c with
    | nil => simp at hc
    | cons x c =>
      obtain ⟨-, hrest'⟩ := List.cons.inj hc
      exact absurd rfl (hmem _ (by rw [hrest']; simp))
  · cases c with
    | nil => simp at hc
    | cons x c =>
      obtain ⟨rfl, rfl⟩ := List.cons.inj hc
      simp [hrest]

/-! ## Stages of a packet -/

/-- How far the packet being handled has come with opening a flow.  A later
    packet of an open flow starts at `entry`: it may go on with its flow or
    open it anew. -/
inductive Stage where
  | ready | parsed | started | live | entry
deriving DecidableEq, Repr

/-- A packet of `ins`, which holds the latch, has reached its handler; what has
    happened since are the events `rest`. -/
def Handling (ins : UInt8) (w : World) (rest : List Event) : Prop :=
  w.latch = some ins ∧ (∃ before, w.log = before ++ .packet ins :: rest) ∧ ∀ e ∈ rest, e.isFlow

/-- The flow of `ins` is open. -/
def Live (ins : UInt8) (w : World) : Prop :=
  w.latch = some ins ∧ SigningFlow w.log ins w.derivationPath w.txState.hash

/-- What holds at a stage. -/
def Stage.Holds (ins : UInt8) (w : World) : Stage → Prop
  | .ready => ∃ rest, Handling ins w rest
  | .parsed => ∃ rest, Handling ins w rest ∧ Parses rest w.derivationPath
  | .started => ∃ rest, Handling ins w rest ∧ Hashes rest w.txState.hash
  | .live => Live ins w
  | .entry => (∃ rest, Handling ins w rest) ∧ Live ins w

theorem Stage.Holds.latch {ins : UInt8} {w : World} {st : Stage} (h : st.Holds ins w) :
    w.latch = some ins := by
  cases st with
  | ready => obtain ⟨_, h⟩ := h; exact h.1
  | parsed => obtain ⟨_, h, -⟩ := h; exact h.1
  | started => obtain ⟨_, h, -⟩ := h; exact h.1
  | live => exact h.1
  | entry => exact h.2.1

section
variable {ins : UInt8} {s t : World}

theorem Parses.append {es es' : List Event} {path : DerivationPath} (h : Parses es path)
    (h' : ∀ p, .path p ∉ es') : Parses (es ++ es') path := by
  obtain ⟨a, b, rfl, hb⟩ := h
  exact ⟨a, b ++ es', by simp, fun p hp => (List.mem_append.mp hp).elim (hb p) (h' p)⟩

theorem Hashes.append {es es' : List Event} {preimage : Bytes} (h : Hashes es preimage)
    (h' : .hashInit ∉ es') : Hashes (es ++ es') (preimage ++ fed es') := by
  obtain ⟨a, b, rfl, hb, rfl⟩ := h
  exact ⟨a, b ++ es', by simp, fun hm => (List.mem_append.mp hm).elim hb h', by simp⟩

theorem Handling.append {rest es : List Event} (h : Handling ins s rest)
    (hl : t.latch = s.latch) (hlog : t.log = s.log ++ es) (he : ∀ e ∈ es, e.isFlow) :
    Handling ins t (rest ++ es) := by
  obtain ⟨hlatch, ⟨before, hs⟩, hrest⟩ := h
  refine ⟨hl.trans hlatch, ⟨before, by rw [hlog, hs]; simp⟩, ?_⟩
  simpa [or_imp, forall_and] using ⟨hrest, he⟩

theorem Live.calm (h : Live ins s) (hst : Calm s t) : Live ins t := by
  obtain ⟨hl, hf⟩ := h
  obtain ⟨ho, hp, pieces, hlog, hhash⟩ := hst
  refine ⟨ho.latch.trans hl, ?_⟩
  rw [hlog, hp, hhash, ← fed_pieces]
  exact hf.append (by simp)

/-- Feeding the hash keeps every stage. -/
theorem Stage.Holds.calm {st : Stage} (h : st.Holds ins s) (hst : Calm s t) : st.Holds ins t := by
  obtain ⟨ho, hp, pieces, hlog, hhash⟩ := id hst
  have hflow : ∀ e ∈ pieces.map Event.hashUpdate, e.isFlow := by simp [Event.isFlow]
  cases st with
  | ready =>
    obtain ⟨rest, h⟩ := h
    exact ⟨_, h.append ho.latch hlog hflow⟩
  | parsed =>
    obtain ⟨rest, h, hpath⟩ := h
    refine ⟨_, h.append ho.latch hlog hflow, ?_⟩
    rw [hp]
    exact hpath.append (by simp)
  | started =>
    obtain ⟨rest, h, hh⟩ := h
    refine ⟨_, h.append ho.latch hlog hflow, ?_⟩
    rw [hhash, ← fed_pieces]
    exact hh.append (by simp)
  | live => exact Live.calm h hst
  | entry =>
    obtain ⟨⟨rest, h⟩, hf⟩ := h
    exact ⟨⟨_, h.append ho.latch hlog hflow⟩, hf.calm hst⟩

theorem Handling.live {rest : List Event} (h : Handling ins s rest)
    (hp : Parses rest s.derivationPath) (hh : Hashes rest s.txState.hash) : Live ins s := by
  obtain ⟨hl, ⟨before, hlog⟩, hrest⟩ := h
  exact ⟨hl, before, rest, [], _, by simp [hlog], hrest, hp, hh, by simp, by simp [fed]⟩

end

/-! ## Programs between stages -/

/-- From stage `a` the program leads to stage `b`, or throws; in either case
    only the flow changes. -/
class Moves (a : Stage) {α : Type} (x : App α) (b : outParam Stage) : Prop where
  moves : ∀ ins s, a.Holds ins s →
    wp x (fun _ t => b.Holds ins t ∧ Inner s t) (fun _ t => Inner s t) s

section Moves
variable {a b c : Stage} {α β : Type}

instance (priority := low) moves_calm {x : App α} [Frames Calm x] : Moves a x a where
  moves _ _ h := wp_frames x (fun _ _ hst => ⟨h.calm hst, hst.inner⟩) fun _ _ hst => hst.inner

instance moves_bind {x : App α} {f : α → App β} [hx : Moves a x b] [hf : ∀ v, Moves b (f v) c] :
    Moves a (x >>= f) c where
  moves ins s h := by
    rw [wp_bind]
    refine wp_mono (fun v t ⟨ht, hst⟩ => ?_) (fun _ _ hst => hst) (hx.moves ins s h)
    exact wp_mono (fun _ _ ⟨hu, htu⟩ => ⟨hu, trans_of Inner hst htu⟩)
      (fun _ _ htu => trans_of Inner hst htu) ((hf v).moves ins t ht)

variable [Platform]

theorem sha256Init_handling {ins : UInt8} {s : World} {rest : List Event}
    (h : Handling ins s rest) :
    wp sha256Init (fun _ t => Handling ins t (rest ++ [.hashInit]) ∧
      Hashes (rest ++ [.hashInit]) t.txState.hash ∧ t.derivationPath = s.derivationPath ∧
      Inner s t) (fun _ t => Inner s t) s := by
  refine wp_mono ?_ (fun _ _ h => h.2)
    (wp_and (Q := fun _ t => t.log = s.log ++ [.hashInit] ∧ t.txState.hash = [] ∧
      t.derivationPath = s.derivationPath) (E := fun _ _ => True) ?_ (Frames.frames s))
  · rintro _ t ⟨⟨hlog, hhash, hp⟩, hst⟩
    refine ⟨h.append hst.latch hlog (by simp [Event.isFlow]), ?_, hp, hst⟩
    exact ⟨rest, [], rfl, by simp, by simp [hhash, fed]⟩
  · simp [sha256Init, record]

instance : Moves .ready sha256Init .started where
  moves ins s := by
    rintro ⟨rest, h⟩
    exact wp_mono (fun _ _ ⟨ht, hh, _, hst⟩ => ⟨⟨_, ht, hh⟩, hst⟩) (fun _ _ h => h)
      (sha256Init_handling h)

instance : Moves .parsed sha256Init .live where
  moves ins s := by
    rintro ⟨rest, h, hp⟩
    refine wp_mono (fun _ t ⟨ht, hh, hpath, hst⟩ => ⟨?_, hst⟩) (fun _ _ h => h)
      (sha256Init_handling h)
    refine ht.live ?_ hh
    rw [hpath]
    exact hp.append (by simp)

theorem parseDerivationPath_handling {ins : UInt8} {s : World} {rest : List Event} (cdata : Bytes)
    (h : Handling ins s rest) :
    wp (parseDerivationPath cdata) (fun _ t => ∃ events, Handling ins t (rest ++ events) ∧
      .hashInit ∉ events ∧ fed events = [] ∧ Parses (rest ++ events) t.derivationPath ∧
      t.txState.hash = s.txState.hash ∧ Inner s t) (fun _ t => Inner s t) s := by
  refine wp_mono ?_ (fun _ _ h => h.2)
    (wp_and (Q := fun _ t => ∃ p, t.log = s.log ++ [.path .init, .path p, .parsed p] ∧
      t.derivationPath = p ∧ t.txState.hash = s.txState.hash) (E := fun _ _ => True) ?_
      (Frames.frames s))
  · rintro _ t ⟨⟨p, hlog, rfl, hhash⟩, hst⟩
    refine ⟨_, h.append hst.latch hlog (by simp [Event.isFlow]), by simp, by simp [fed], ?_,
      hhash, hst⟩
    exact ⟨rest ++ [.path .init, .path t.derivationPath], [], by simp, by simp⟩
  · simp only [parseDerivationPath, setDerivationPath, record, wp_bind, wp_modify]
    refine wp_frames (R := Eq) _ ?_ (fun _ _ _ => trivial)
    rintro ⟨consumed, dp⟩ t rfl
    simp only [wp_bind, wp_modify]
    refine wp_frames (R := Eq) _ ?_ (fun _ _ _ => trivial)
    rintro - t rfl
    simp

instance {cdata : Bytes} : Moves .ready (parseDerivationPath cdata) .parsed where
  moves ins s := by
    rintro ⟨rest, h⟩
    exact wp_mono (fun _ _ ⟨_, ht, _, _, hp, _, hst⟩ => ⟨⟨_, ht, hp⟩, hst⟩) (fun _ _ h => h)
      (parseDerivationPath_handling cdata h)

instance {cdata : Bytes} : Moves .started (parseDerivationPath cdata) .live where
  moves ins s := by
    rintro ⟨rest, h, hh⟩
    refine wp_mono (fun _ t ⟨es, ht, hes, hfed, hp, hhash, hst⟩ => ⟨?_, hst⟩) (fun _ _ h => h)
      (parseDerivationPath_handling cdata h)
    refine ht.live hp ?_
    rw [hhash]
    simpa [hfed] using hh.append hes

omit [Platform] in
theorem Moves.entry {x : App α} (h : Moves .ready x b) : Moves .entry x b where
  moves ins s := fun ⟨hs, _⟩ => h.moves ins s hs

instance : Moves .entry sha256Init .started := Moves.entry inferInstance

instance {cdata : Bytes} : Moves .entry (parseDerivationPath cdata) .parsed :=
  Moves.entry inferInstance

instance {cdata : Bytes} {kind : UInt8} {dst : Buf 57} :
    Moves .ready (handleHeaderAndToAddress cdata kind dst) .live := by
  unfold handleHeaderAndToAddress; infer_instance

instance {cdata : Bytes} {kind : UInt8} {dst : Buf 57} :
    Moves .entry (handleHeaderAndToAddress cdata kind dst) .live := Moves.entry inferInstance

instance {cmd : Command} {kind : UInt8} : Moves .ready (openTransaction cmd kind) .live := by
  unfold openTransaction; infer_instance

instance {cmd : Command} {kind : UInt8} : Moves .entry (openTransaction cmd kind) .live :=
  Moves.entry inferInstance

instance {cmd : Command} {kind : UInt8} : Moves .ready (openContract cmd kind) .live := by
  unfold openContract; infer_instance

instance {cmd : Command} {kind : UInt8} : Moves .entry (openContract cmd kind) .live :=
  Moves.entry inferInstance

end Moves

end Concordium
