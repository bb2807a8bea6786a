import LabelPress.Conversion
import LabelPress.Playback
import LabelPress.Proofs.Input.Script
import LabelPress.Proofs.Surface.Traced
import LabelPress.Proofs.Surface.Valid

/-!
# Playing what was recorded

A recording of calls is a recorded drawing (`Playback.isDrawing_recorded`), and its entries are the
calls that were recorded (`Playback.entryCall_recorded`). So playing it makes the calls of the label
again, with the page size as floating-point numbers:

* a trace is left with the same lines as if the label had been drawn on it;
* a page is left as it would be by the label, with the same refusal if there is one.
-/

namespace LabelPress

/-! ## The entries as calls -/

namespace Playback

theorem entryCall_named (p : Primitive) (args : List (Text × Json)) :
    entryCall (Entry.toJson ⟨.string p.name, args⟩) = call p args := by
  cases p <;> rfl

theorem call_createDocument (w h : Json) :
    call .createDocument [("width_mm", w), ("height_mm", h)] = .ok (.createDocument w h) := rfl

theorem call_moveCursor (x y : Json) :
    call .moveCursor [("x_mm", x), ("y_mm", y)] = .ok (.moveCursor x y) := rfl

theorem call_drawRect (x y w h t : Json) (c : Colour) :
    call .drawRect [("x_mm", x), ("y_mm", y), ("width_mm", w), ("height_mm", h),
      ("thickness_mm", t), ("stroke_color", .string c.code)] =
        .ok (.drawRect x y w h t (.colour c)) := by
  cases c <;> rfl

theorem call_drawBarcode (content : Text) (f : Formatting) :
    call .drawBarcode [("content", .string content), ("formatting", f.toJson)] =
      .ok (.drawBarcode (.text content) (.formatting f)) := rfl

/-- The entry of a plain call is this call. -/
theorem entryCall_recorded {c : Call} (h : c.IsPlain) : entryCall c.recorded.toJson = .ok c := by
  refine (entryCall_named c.primitive _).trans ?_
  cases h with
  | moveCursor x y => exact call_moveCursor _ _
  | setFontSize | drawText => rfl
  | drawRect x y w h t c => exact call_drawRect _ _ _ _ _ c
  | drawBarcode content f => exact call_drawBarcode content f

theorem entryCall_createDocument (w h : Json) :
    entryCall (Call.recorded (.createDocument w h)).toJson = .ok (.createDocument w h) :=
  (entryCall_named .createDocument _).trans (call_createDocument w h)

/-- Playing entries of calls is making these calls. -/
theorem playAll_eq_drawAll {cs : List Call}
    (h : ∀ c ∈ cs, entryCall c.recorded.toJson = .ok c) (s : Surface) :
    playAll (cs.map fun c => c.recorded.toJson) s = s.drawAll cs := by
  induction cs generalizing s with
  | nil => rfl
  | cons c cs ih =>
    have hrest : playAll (cs.map fun c => c.recorded.toJson) = Surface.drawAll cs :=
      funext (ih fun d hd => h d (List.mem_cons_of_mem c hd))
    have hfirst : playEntry c.recorded.toJson s = s.draw c := by
      unfold playEntry
      rw [h c List.mem_cons_self]
    rw [List.map_cons, playAll, Surface.drawAll, hrest, hfirst]

/-- A recording of calls that has a version, and a source that is a text if there is one, is a recorded
drawing. -/
theorem isDrawing_recorded {r : Recording} {version : Text} {cs : List Call}
    (hversion : r.version = .string version)
    (hsource : r.source = .null ∨ ∃ t, r.source = .string t)
    (hentries : r.entries.toList = cs.map Call.recorded) : Drawing.IsDrawing r.toJson := by
  refine Recording.isDrawing_toJson.2 ⟨⟨version, hversion⟩, fun htruthy => ?_, fun e he => ?_⟩
  · rcases hsource with hnull | htext
    · rw [hnull] at htruthy
      cases htruthy
    · exact htext
  · rw [hentries] at he
    obtain ⟨c, -, rfl⟩ := List.mem_map.1 he
    exact ⟨c.primitive, rfl⟩

/-- Playing a recording of calls is making these calls. -/
theorem run_toJson {r : Recording} {version : Text} {cs : List Call}
    (hversion : r.version = .string version)
    (hsource : r.source = .null ∨ ∃ t, r.source = .string t)
    (hentries : r.entries.toList = cs.map Call.recorded)
    (hcalls : ∀ c ∈ cs, entryCall c.recorded.toJson = .ok c) (s : Surface) :
    run r.toJson s = s.drawAll cs := by
  have hcheck : Drawing.schema.check r.toJson = none :=
    Drawing.check_eq_none.2 (isDrawing_recorded hversion hsource hentries)
  have hcommands : r.toJson.get? "commands" = some (.array (r.entries.toList.map (·.toJson))) := rfl
  unfold run
  rw [hcheck, hcommands]
  simp only [Option.getD_some, execute, Json.elements?]
  rw [hentries, List.map_map]
  exact playAll_eq_drawAll hcalls s

end Playback

/-! ## Pages -/

namespace Page

/-- A page is begun by the floating-point numbers of its size. -/
theorem draw_createDocument {w h : Json} {x y : Float} (hx : w.toFloat = .ok x)
    (hy : h.toFloat = .ok y) (p : Page) :
    Surface.draw (.createDocument w h) (.page p) =
      Surface.draw (.createDocument (.float x) (.float y)) (.page p) := by
  have hsame : p.createDocument w h = p.createDocument (.float x) (.float y) := by
    unfold createDocument
    rw [hx, hy]
    rfl
  unfold Surface.draw Page.draw
  simp only [hsame]

end Page

/-! ## Recording and playing -/

namespace Conversion

/-- A conversion that gives a document has read commands and carried them all out. -/
theorem withSettings_eq_ok {r : Reader} {s : Settings} {surface : Surface} {d : Document}
    (h : (withSettings r s surface).result = .ok d) :
    ∃ commands, r.commands.2 = .ok commands ∧
      ((Press.start (some s.resolution) (.number s.width) (.number s.height) surface).andThen
        (Press.run commands)).fault = none := by
  unfold withSettings ofReader at h
  -- a document is given only if the commands were read and none of them failed
  cases hcommands : r.commands.2 with
  | error fault =>
    rw [hcommands] at h
    cases h
  | ok commands =>
    refine ⟨commands, rfl, ?_⟩
    rw [hcommands] at h
    simp only [ofCommands] at h
    cases hfault : ((Press.start (some s.resolution) (.number s.width) (.number s.height)
        surface).andThen (Press.run commands)).fault with
    | none => rfl
    | some fault =>
      simp only [hfault] at h
      cases h

/-- What a conversion makes of commands that go through. -/
theorem withSettings_of_run {r : Reader} {s : Settings} {surface : Surface}
    {commands : List Command} (hcommands : r.commands.2 = .ok commands)
    (h : ((Press.start (some s.resolution) (.number s.width) (.number s.height) surface).andThen
      (Press.run commands)).fault = none) :
    (withSettings r s surface).surface =
        ((Press.start (some s.resolution) (.number s.width) (.number s.height) surface).andThen
          (Press.run commands)).state.surface.finish.1 ∧
      (withSettings r s surface).result =
        ((Press.start (some s.resolution) (.number s.width) (.number s.height) surface).andThen
          (Press.run commands)).state.surface.finish.2 := by
  unfold withSettings ofReader
  simp only [hcommands, ofCommands, h, and_self]

/-- Recording a label and playing the recording is drawing the label. A trace gets the same lines,
and so the same document; a page is given the same instructions, and refuses what it would refuse
of the label. -/
theorem replay_withSettings {r : Reader} {s : Settings} {blank : Recording} {version : Text}
    {d : Document} (hversion : blank.version = .string version)
    (hsource : blank.source = .null ∨ ∃ t, blank.source = .string t)
    (hfresh : blank.entries = #[]) (hdoc : (withSettings r s (.recording blank)).result = .ok d) :
    ∃ record commands, (withSettings r s (.recording blank)).surface = .recording record ∧
      r.commands.2 = .ok commands ∧
      (∀ t : Trace, ∃ played drawn : Trace,
        Playback.run record.toJson (.trace t) = .done (.trace played) ∧
          (withSettings r s (.trace t)).surface = .trace drawn ∧
          played.lines = drawn.lines ∧
          (Surface.trace played).finish.2 = (withSettings r s (.trace t)).result) ∧
      ∀ p : Page,
        (Playback.run record.toJson (.page p)).state =
            ((Press.start (some s.resolution) (.number s.width) (.number s.height) (.page p)).andThen
              (Press.run commands)).state.surface ∧
          (Playback.run record.toJson (.page p)).fault =
            ((Press.start (some s.resolution) (.number s.width) (.number s.height) (.page p)).andThen
              (Press.run commands)).fault := by
  obtain ⟨commands, hcommands, hrun⟩ := withSettings_eq_ok hdoc
  obtain ⟨inner, x, y, record, hinner, hx, hy, hsteps, hsurface, hextends⟩ := Recording.of_run hrun
  have hplain := Press.isPlain_inside (some s.resolution) inner
  -- what is played are the calls of the label, with the page size as it was recorded
  have hplay (t : Surface) : Playback.run record.toJson t =
      t.drawAll (.createDocument (.float x) (.float y) ::
        .setFontSize (.float Label.defaultFontSize) ::
          ((Label.first (some s.resolution)).steps inner).calls) := by
    apply Playback.run_toJson (hextends.version.trans hversion)
    · rw [hextends.source]
      exact hsource
    · rw [hextends.entries, hfresh]
      rfl
    · intro c hc
      rcases List.mem_cons.1 hc with rfl | hc
      · exact Playback.entryCall_createDocument _ _
      · exact Playback.entryCall_recorded (hplain c hc)
  have hrecord := (withSettings_of_run hcommands hrun).1
  rw [hsurface] at hrecord
  refine ⟨record, commands, hrecord, hcommands, ?_, ?_⟩
  · intro t
    -- the page size has one line, whether it is given as it was or as it was recorded
    obtain ⟨first, hnumber, hfloat⟩ := Trace.line_createDocument hx hy
    obtain ⟨lines, hlines⟩ := Trace.lines_of_plain hplain
    obtain ⟨drawn, hdrawn, hdrawnLines⟩ := Trace.drawAll_of_lines (.cons hnumber hlines) t
    obtain ⟨played, hplayed, hplayedLines⟩ := Trace.drawAll_of_lines (.cons hfloat hlines) t
    have hsame : played.lines = drawn.lines :=
      Array.toList_inj.1 (hplayedLines.trans hdrawnLines.symm)
    rw [← Press.calls_whole] at hdrawn
    have hstraight : ((Press.start (some s.resolution) (.number s.width) (.number s.height)
        (.trace t)).andThen (Press.run commands)).fault = none := by
      rw [Press.run_start hinner, Press.fault_take, hdrawn, Press.fault_whole, hsteps]
      rfl
    obtain ⟨hlast, hresult⟩ := withSettings_of_run hcommands hstraight
    rw [Press.run_start hinner, Press.surface_take, hdrawn] at hlast hresult
    refine ⟨played, drawn, (hplay _).trans hplayed, hlast, hsame, ?_⟩
    rw [hresult]
    exact congrArg (Document.text <$> ·) (Trace.render_of_lines hsame)
  · intro p
    -- a page takes its size as floating-point numbers, and all other calls are the same
    rw [hplay, Press.run_start hinner, Press.surface_take, Press.fault_take, Press.fault_whole,
      hsteps, Option.or_none, Press.calls_whole, Surface.drawAll, Surface.drawAll,
      Page.draw_createDocument hx hy]
    exact ⟨rfl, rfl⟩

/-- A label with a barcode, recorded and played on traces. -/
theorem replay_withSettings_barcode :
    ∃ record, (withSettings ⟨.inMemory (Charset.encodeUtf8
        "^XA^FO8,16^BCN,50^FDab^FS^XZ".toList).toArray 0 false, .standard⟩ {}
        (.recording {})).surface = .recording record ∧
      ∀ t : Trace, ∃ played drawn : Trace,
        Playback.run record.toJson (.trace t) = .done (.trace played) ∧
          (withSettings ⟨.inMemory (Charset.encodeUtf8
            "^XA^FO8,16^BCN,50^FDab^FS^XZ".toList).toArray 0 false, .standard⟩ {}
            (.trace t)).surface = .trace drawn ∧ played.lines = drawn.lines := by
  have hcommands : (Reader.commands ⟨.inMemory (Charset.encodeUtf8
      "^XA^FO8,16^BCN,50^FDab^FS^XZ".toList).toArray 0 false, .standard⟩).2 =
        .ok (List.map Command.parse ["^XA", "^FO8,16", "^BCN,50", "^FDab", "^FS", "^XZ"]) := by
    have hscript : Script.commands "^XA^FO8,16^BCN,50^FDab^FS^XZ".toList =
        .ok (List.map Command.parse ["^XA", "^FO8,16", "^BCN,50", "^FDab", "^FS", "^XZ"]) := by
      decide
    have hcodec : Encoding.standard.codec = Charset.utf8.codec := rfl
    rw [Reader.commands_inMemory, List.toList_toArray,
      Script.tokens_of_encode hcodec (by decide) rfl, hscript]
    rfl
  have hrun : ((Press.start (some (.int 8)) (.float 101.6) (.float 152.4)
      (.recording {})).andThen (Press.run (List.map Command.parse
        ["^XA", "^FO8,16", "^BCN,50", "^FDab", "^FS", "^XZ"]))).fault = none :=
    Option.isNone_iff_eq_none.1 (by decide)
  obtain ⟨_, _, _, record, -, -, -, -, hsurface, -⟩ := Recording.of_run hrun
  have hresult := (withSettings_of_run (s := {}) hcommands hrun).2
  rw [hsurface] at hresult
  obtain ⟨record, _, hrecord, -, htrace, -⟩ :=
    replay_withSettings (show ({} : Recording).version = .string "1.0" from rfl) (Or.inl rfl) rfl
      hresult
  refine ⟨record, hrecord, ?_⟩
  intro t
  obtain ⟨played, drawn, hplayed, hdrawn, hsame, -⟩ := htrace t
  exact ⟨played, drawn, hplayed, hdrawn, hsame⟩

end Conversion

end LabelPress
