import LabelPress.Input.Reader
import LabelPress.Proofs.Input.Lookahead

/-!
# Who closes a source

A reader owns its source from the moment at which it is made. Until then the source is its giver's: if
there is no encoding of the name that was asked for, nothing has been done to it. A source that cannot
be measured is closed; one that can be is handed on open, and stands where it stood
(`Reader.Opening`). The commands are read once: then the source is closed, and it stays closed whatever
is done to it, so that whoever asks for the commands again is told that it cannot be rewound
(`Reader.closed_after_of_mem`).
-/

namespace LabelPress

/-! ## Closed sources and measurable ones -/

namespace Source

variable {s t : Source} {p q : Nat}

/-- The source says where it is, and can be moved to its end and back. -/
structure IsMeasurable (s : Source) : Prop where
  opened : s.closed = false
  seekable : s.seekable = true
  locatable : s.locatable = true
  moves : ∀ n, s.movesLeft = some n → 2 ≤ n

theorem tell_of_closed (h : s.closed = true) : s.tell = .error .closed := by
  simp [tell, h]

/-- A source tells its place if it is open and has one. -/
theorem tell_eq_ok_iff :
    s.tell = .ok p ↔ s.closed = false ∧ s.locatable = true ∧ s.position = p := by
  unfold tell
  cases s.closed <;> cases s.locatable <;> simp

/-- A source moves as long as it is open and has moves left. -/
theorem moveTo_eq_ok_iff :
    s.moveTo p = .ok t ↔ s.movesLeft ≠ some 0 ∧ s.closed = false ∧
      { s with position := p, movesLeft := s.movesLeft.map (· - 1) } = t := by
  unfold moveTo
  by_cases hleft : s.movesLeft = some 0
  · simp [hleft]
  · cases hclosed : s.closed <;> simp [hleft]

theorem moveTo_of_closed (h : s.closed = true) (p : Nat) : ∃ e, s.moveTo p = .error e := by
  cases hmove : s.moveTo p with
  | error e => exact ⟨e, rfl⟩
  | ok t => exact absurd (moveTo_eq_ok_iff.1 hmove).2.1 (by simp [h])

theorem moveBy_of_closed (h : s.closed = true) (d : Int) : ∃ e, s.moveBy d = .error e := by
  unfold moveBy
  rw [if_pos h]
  split
  · exact ⟨_, rfl⟩
  · split <;> exact ⟨_, rfl⟩

/-- Two moves can be made exactly if so many are left. -/
theorem moveTo_twice_iff {u : Source} :
    (∃ t, s.moveTo p = .ok t ∧ t.moveTo q = .ok u) ↔
      s.closed = false ∧ (∀ n, s.movesLeft = some n → 2 ≤ n) ∧
        { s with position := q, movesLeft := (s.movesLeft.map (· - 1)).map (· - 1) } = u := by
  -- each of the two moves takes one of those that are left
  simp only [moveTo_eq_ok_iff]
  constructor
  · rintro ⟨t, ⟨hfirst, hopen, rfl⟩, hsecond, -, rfl⟩
    refine ⟨hopen, fun n hn => ?_, rfl⟩
    simp only [hn, Option.map_some, ne_eq, Option.some.injEq] at hfirst hsecond
    omega
  · rintro ⟨hopen, hmoves, rfl⟩
    refine ⟨_, ⟨fun hfirst => ?_, hopen, rfl⟩, fun hsecond => ?_, hopen, rfl⟩
    · exact absurd (hmoves 0 hfirst) (by decide)
    · obtain ⟨n, hn, hone⟩ := Option.map_eq_some_iff.1 hsecond
      have := hmoves n hn
      omega

end Source

namespace Cursor

variable {c : Cursor}

/-- Whatever is done to a cursor on a closed source, the source is as it was. -/
theorem source_act_of_closed (h : c.source.closed = true) (m : Motion) :
    (c.act m).source = c.source := by
  have hnext : next c = .error (.stream .unlocatable) c := by
    simp only [next, Source.tell_of_closed h]
  cases m with
  | next => simp only [act, hnext, left]
  | peek => simp only [act, peek, hnext, left]
  | move d =>
    obtain ⟨e, hmove⟩ := Source.moveBy_of_closed h d
    cases e <;> simp only [act, move, hmove, left]
  | rewind =>
    obtain ⟨e, hmove⟩ := Source.moveTo_of_closed h 0
    simp only [act, rewind, hmove, left]

/-- A cursor can be set on a source that can be measured, and leaves it where it was. -/
theorem open_of_isMeasurable {s : Source} (h : s.IsMeasurable) :
    ∃ c, Cursor.open s = .ok c c.source ∧ c.source.closed = false ∧
      c.source.position = s.position := by
  obtain ⟨t, hend, hback⟩ := (Source.moveTo_twice_iff (p := s.reportedEnd) (q := s.position)).2
    ⟨h.opened, h.moves, rfl⟩
  have htell := Source.tell_eq_ok_iff.2 ⟨h.opened, h.locatable, rfl⟩
  refine ⟨{ source := { s with movesLeft := (s.movesLeft.map (· - 1)).map (· - 1) }
            size := s.reportedEnd }, ?_, h.opened, rfl⟩
  simp only [Cursor.open, h.opened, h.seekable, htell, hend, hback]
  rfl

/-- Any other source is closed. -/
theorem open_of_not_isMeasurable {s : Source} (h : ¬ s.IsMeasurable) :
    ∃ reason, Cursor.open s = .error (.stream (.unmeasurable reason)) s.close := by
  unfold Cursor.open
  simp only
  split
  · exact ⟨_, rfl⟩
  split
  · exact ⟨_, rfl⟩
  next hseekable =>
    cases htell : s.tell with
    | error e => exact ⟨_, rfl⟩
    | ok start =>
      cases hend : s.moveTo s.reportedEnd with
      | error e => exact ⟨_, rfl⟩
      | ok t =>
        simp only
        cases hback : t.moveTo start with
        | error e => exact ⟨_, rfl⟩
        | ok u =>
          -- all that a measurement asks of the source has been granted
          obtain ⟨hopen, hmoves, -⟩ := Source.moveTo_twice_iff.1 ⟨t, hend, hback⟩
          obtain ⟨-, hlocatable, -⟩ := Source.tell_eq_ok_iff.1 htell
          exact absurd ⟨hopen, by simpa using hseekable, hlocatable, hmoves⟩ h

end Cursor

/-! ## Readers -/

namespace Reader

/-- What can be done with a reader: its source can be read and moved, and its commands can be asked
for. -/
inductive Use where
  | motion (m : Cursor.Motion)
  | commands
  deriving DecidableEq, Repr

def act (r : Reader) : Use → Reader
  | .motion m => { r with cursor := r.cursor.act m }
  | .commands => r.commands.1

/-- The reader after it has been used, each use being tried whatever came of those before. -/
def after (history : List Use) (r : Reader) : Reader :=
  history.foldl act r

/-- What comes of a source and the name of an encoding, with the codecs of a library. -/
inductive Opening (library : Codec.Library) (name : Text) (s : Source) :
    EStateM.Result Fault Source Reader → Prop where
  /-- There is no encoding of that name. The source has been left alone. -/
  | refused (f : EncodingFault) (hname : Encoding.ofName library name = .error f) :
      Opening library name s (.error (.encoding name f) s)
  /-- The source cannot be measured, and is closed. -/
  | failed (f : StreamFault) (t : Source) (hclosed : t.closed = true) (hs : ¬ s.IsMeasurable) :
      Opening library name s (.error (.input (.stream f)) t)
  /-- The source is open, and at the position that it had. -/
  | made (r : Reader) (hname : Encoding.ofName library name = .ok r.encoding) (hs : s.IsMeasurable)
      (hopen : r.cursor.source.closed = false)
      (hplace : r.cursor.source.position = s.position) :
      Opening library name s (.ok r r.cursor.source)

/-- An unknown name is refused first, then a source that cannot be measured; otherwise there is a
reader. -/
theorem opening_ofSource (library : Codec.Library) (name : Text) (s : Source) :
    Opening library name s (ofSource library name s) := by
  unfold ofSource encodingOf
  cases hname : Encoding.ofName library name with
  | error f => exact .refused f hname
  | ok e =>
    by_cases hs : s.IsMeasurable
    · obtain ⟨c, hc, hopen, hplace⟩ := Cursor.open_of_isMeasurable hs
      simp only [hc]
      exact .made ⟨c, e⟩ hname hs hopen hplace
    · obtain ⟨reason, hc⟩ := Cursor.open_of_not_isMeasurable hs
      simp only [hc]
      exact .failed _ _ rfl hs

/-- Whatever comes of asking for the commands, the source is closed then. -/
theorem closed_commands (r : Reader) : r.commands.1.cursor.source.closed = true := by
  unfold commands
  cases Input.readAll r.encoding r.cursor <;> rfl

/-- A reader whose source was closed reads nothing, and says so. -/
theorem commands_of_closed {r : Reader} (h : r.cursor.source.closed = true) :
    r.commands.2 = .error (.input (.stream .notRewindable)) := by
  obtain ⟨e, hmove⟩ := Source.moveTo_of_closed h 0
  have hrewind : r.cursor.rewind = .error (.stream .notRewindable) { r.cursor with atEnd := false } := by
    simp only [Cursor.rewind, hmove]
  unfold commands Input.readAll
  simp only [bind, EStateM.bind, hrewind]

/-- No use opens a closed source. -/
theorem closed_act {r : Reader} (h : r.cursor.source.closed = true) (use : Use) :
    (r.act use).cursor.source.closed = true := by
  cases use with
  | motion m =>
    show (r.cursor.act m).source.closed = true
    rw [Cursor.source_act_of_closed h]
    exact h
  | commands => exact r.closed_commands

theorem closed_after {r : Reader} (h : r.cursor.source.closed = true) (history : List Use) :
    (r.after history).cursor.source.closed = true := by
  induction history generalizing r with
  | nil => exact h
  | cons use history ih => exact ih (closed_act h use)

/-- Once the commands have been asked for, the source is closed for good. -/
theorem closed_after_of_mem (r : Reader) {history : List Use} (h : .commands ∈ history) :
    (r.after history).cursor.source.closed = true := by
  obtain ⟨before, later, rfl⟩ := List.append_of_mem h
  have hsplit : r.after (before ++ .commands :: later) =
      ((r.after before).commands.1).after later := by
    simp [after, act]
  rw [hsplit]
  exact closed_after (closed_commands _) later

/-- A reader takes its source over, and closes it, whatever codecs there are. Nothing is done to the source if there is no encoding
of the name; the source is closed if it cannot be measured; and otherwise there is a reader, with the
source open where it stood. From the first time at which the commands are asked for, whatever came of it
and whatever else is done to the reader, the source is closed, and the commands cannot be read again. -/
theorem ofSource_owns (library : Codec.Library) (name : Text) (s : Source) :
    Opening library name s (ofSource library name s) ∧
      ∀ (r : Reader) (history : List Use), .commands ∈ history →
        (r.after history).cursor.source.closed = true ∧
          (r.after history).commands.2 = .error (.input (.stream .notRewindable)) :=
  ⟨opening_ofSource library name s, fun r _ h =>
    ⟨r.closed_after_of_mem h, commands_of_closed (r.closed_after_of_mem h)⟩⟩

end Reader

end LabelPress
