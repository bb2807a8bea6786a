import LabelPress.CommandLine.Run
import LabelPress.Proofs.Input.Script
import LabelPress.Proofs.Label.Envelope
import LabelPress.Proofs.Label.Whole
import LabelPress.Proofs.Number.Resolution

/-!
# Why a conversion stops

Bytes in memory and in a file can always be read to the end, and with the settings of a printer all
lengths can be converted. So if there is no document, the fault lies in what is written in the label
(`Fault.OfLabel`), whatever the bytes are. The values, the surface and the source are never at fault.

* `Input.ofLabel_of_tokens`: reading stops where no command stands, or at a command that is no text;
* `Label.ofLabel_of_steps`: commands stop at an argument, as the label stays sound;
* `Conversion.isProper_ofCommands`: a surface that draws plain calls and can be finished adds nothing.
-/

namespace LabelPress

/-- The fault lies in what is written: no command stands where one has to, a command is no text, the
envelope is not in order, or an argument is not allowed. -/
inductive Fault.OfLabel : Fault → Prop where
  | stray (position : Nat) : OfLabel (.input (.stray position))
  | undecodable (position : Nat) (encoding reason : String) :
    OfLabel (.input (.undecodable position encoding reason))
  | envelope (fault : EnvelopeFault) : OfLabel (.envelope fault)
  | argument (fault : ArgumentFault) : OfLabel (.argument fault)

/-! ## Reading -/

namespace Input

variable {e : Encoding} {set : Charset} {p : Nat} {fault : InputFault}

/-- Pieces are not read because of what the codec says of one of them. -/
theorem fault_of_pieceTokens {ps : List (List UInt8)} (h : pieceTokens e p ps = .error fault) :
    ∃ bytes q x, e.decode bytes = .error x ∧ fault = .ofCodec q e.name x := by
  -- induction on the pieces: the first one fails, or one behind it
  induction ps generalizing p with
  | nil => cases h
  | cons piece rest ih =>
    unfold pieceTokens at h
    split at h
    · next hpiece =>
      cases h
      unfold pieceToken at hpiece
      split at hpiece
      · cases hpiece
      · next x hx =>
        cases hpiece
        exact ⟨_, _, x, hx, rfl⟩
    · split at h
      · next hrest =>
        cases h
        exact ih hrest
      · cases h

theorem fault_of_tokens {bytes : List UInt8} (h : tokens e p bytes = .error fault) :
    (∃ q, fault = .stray q) ∨
      ∃ bytes q x, e.decode bytes = .error x ∧ fault = .ofCodec q e.name x := by
  unfold tokens at h
  split at h
  · cases h
  · simp only at h
    split at h
    · exact .inr (fault_of_pieceTokens h)
    · cases h
      exact .inl ⟨_, rfl⟩

/-- The codec of a character set never fails by itself, so it is the label that is at fault. -/
theorem ofLabel_of_tokens (hcodec : e.codec = set.codec) {bytes : List UInt8}
    (h : tokens e p bytes = .error fault) : (Fault.input fault).OfLabel := by
  obtain ⟨q, rfl⟩ | ⟨bs, q, x, hx, rfl⟩ := fault_of_tokens h
  · exact .stray q
  · rw [Encoding.decode, hcodec] at hx
    obtain ⟨y, -, rfl⟩ := Charset.codec_decode_eq_error.1 hx
    exact .undecodable _ _ _

end Input

namespace Reader

variable {e : Encoding} {set : Charset} {bytes : Array UInt8} {p : Nat}

/-- Bytes in memory are read to the end, or the label is at fault. -/
theorem ofLabel_of_inMemory (hcodec : e.codec = set.codec) {fault : Fault}
    (h : (commands ⟨.inMemory bytes p false, e⟩).2 = .error fault) : fault.OfLabel := by
  rw [commands_inMemory] at h
  cases htokens : Input.tokens e 0 bytes.toList with
  | error x =>
    rw [htokens] at h
    cases h
    exact Input.ofLabel_of_tokens hcodec htokens
  | ok ts =>
    rw [htokens] at h
    cases h

/-- The commands that are read have whole arguments. -/
theorem isWhole_of_inMemory (hcodec : e.codec = set.codec) (hset : set ≠ .escapedUnicode)
    {cs : List Command} (h : (commands ⟨.inMemory bytes p false, e⟩).2 = .ok cs) :
    ∀ c ∈ cs, ∀ t ∈ c.args, t.IsWhole := by
  rw [commands_inMemory] at h
  cases htokens : Input.tokens e 0 bytes.toList with
  | error x =>
    rw [htokens] at h
    cases h
  | ok ts =>
    rw [htokens] at h
    cases h
    intro c hc
    obtain ⟨token, htoken, rfl⟩ := List.mem_map.1 hc
    exact Command.isWhole_parse (Input.isWhole_of_tokens hcodec hset htokens token htoken)

end Reader

/-! ## Carrying out -/

namespace Label

/-- The first label is sound at the resolution of every printer. -/
theorem sound_first {r : Number} (hr : Settings.resolutions.any r.same = true) :
    (first (some r)).Sound where
  lengths n hlow hhigh := by
    have hmax : maxDots = 32000 := rfl
    have hsmall : n.natAbs ≤ Nat.pow 2 53 := Nat.le_trans (by omega) (show 32000 ≤ Nat.pow 2 53 by decide)
    exact Number.dividedBy_of_resolution (decide_eq_true hsmall) hr
  moduleWidth := by
    show (1 : Int) ≤ 2 ∧ (2 : Int) ≤ 10
    decide
  barcodeHeight := by
    show (1 : Int) ≤ 10 ∧ (10 : Int) ≤ maxDots
    decide
  pending text h := by
    rw [show (first (some r)).barcodeArgs = [] from rfl, Argument.get?_nil] at h
    cases h

/-- Commands on a sound label stop at an argument only. -/
theorem ofLabel_of_steps {l : Label} (hl : l.Sound) {cs : List Command} {fault : Fault}
    (h : (l.steps cs).fault = some fault) : fault.OfLabel := by
  cases (regular_steps cs l).fault fault h with
  | argument e => exact .argument e
  | value e hsound => exact absurd hl hsound

theorem mem_of_interior {commands inner : List Command} (h : interior commands = .ok inner)
    {c : Command} (hc : c ∈ inner) : c ∈ commands := by
  cases interior_eq_ok_iff.1 h
  exact List.mem_cons_of_mem _ (List.mem_append_left _ hc)

end Label

namespace Conversion

/-- A document, or a fault of the label. -/
def IsProper (x : Except Fault Document) : Prop :=
  (∃ d, x = .ok d) ∨ ∃ fault, x = .error fault ∧ fault.OfLabel

theorem isProper_ofCommands {r : Number} (hr : Settings.resolutions.any r.same = true)
    {width height : Json} {surface : Surface} {commands : List Command}
    (hdraw : ∀ inner, (∀ c ∈ inner, c ∈ commands) → ∃ t d,
      surface.drawAll (Press.whole (some r) width height inner).calls = .done t ∧
        t.finish.2 = .ok d) :
    IsProper (ofCommands commands (some r) width height surface).result := by
  unfold ofCommands
  cases hinner : Label.interior commands with
  | error fault =>
    -- the page is begun before the envelope is looked at
    obtain ⟨t, -, hstart, -⟩ := hdraw [] (by simp)
    have hnone : (Press.start (some r) width height surface).fault = none := by
      unfold Press.start
      rw [Press.fault_take]
      show Option.or (Surface.drawAll (Press.whole (some r) width height []).calls surface).fault
        none = none
      rw [hstart]
      rfl
    have hfault : ((Press.start (some r) width height surface).andThen
        (Press.run commands)).fault = some (.envelope fault) := by
      rw [Outcome.fault_andThen hnone, Press.run, hinner]
      rfl
    simp only [hfault]
    exact Or.inr ⟨_, rfl, .envelope fault⟩
  | ok inner =>
    -- the surface draws all calls, so only the commands themselves can stop
    obtain ⟨t, d, hdrawn, hfinish⟩ := hdraw inner fun c => Label.mem_of_interior hinner
    have hfault : ((Press.start (some r) width height surface).andThen
        (Press.run commands)).fault = ((Label.first (some r)).steps inner).fault := by
      rw [Press.run_start hinner, Press.fault_take, hdrawn, Press.fault_whole]
      rfl
    cases hsteps : ((Label.first (some r)).steps inner).fault with
    | some fault =>
      rw [hsteps] at hfault
      simp only [hfault]
      exact Or.inr ⟨fault, rfl, Label.ofLabel_of_steps (Label.sound_first hr) hsteps⟩
    | none =>
      rw [hsteps] at hfault
      simp only [hfault]
      rw [Press.run_start hinner, Press.surface_take, hdrawn]
      exact Or.inl ⟨d, hfinish⟩

end Conversion

/-! ## Surfaces that refuse nothing -/

namespace Recording

theorem drawAll_whole (resolution : Option Number) {width height : Number} {x y : Float}
    (hx : width.toFloat = .ok x) (hy : height.toFloat = .ok y) (inner : List Command)
    (blank : Recording) :
    ∃ r, Surface.drawAll (Press.whole resolution (.number width) (.number height) inner).calls
      (.recording blank) = .done (.recording r) := by
  have hwidth : (Json.number width).toFloat = .ok x := hx
  have hheight : (Json.number height).toFloat = .ok y := hy
  obtain ⟨r, hfirst, -⟩ := draw_createDocument hwidth hheight blank
  obtain ⟨s, hrest, -⟩ := drawAll_plain (Press.isPlain_inside resolution inner) r
  refine ⟨s, ?_⟩
  rw [Press.calls_whole, Surface.drawAll, hfirst, Outcome.andThen_done, hrest]

end Recording

namespace Trace

theorem drawAll_whole (resolution : Option Number) {width height : Number} {x y : Float}
    (hx : width.toFloat = .ok x) (hy : height.toFloat = .ok y) {inner : List Command}
    (hinner : ∀ c ∈ inner, ∀ t ∈ c.args, t.IsWhole) (echo : Bool) :
    ∃ t s, Surface.drawAll (Press.whole resolution (.number width) (.number height) inner).calls
      (.trace { echo }) = .done (.trace t) ∧ t.render = .ok s := by
  obtain ⟨line, hline, -⟩ := line_createDocument hx hy
  obtain ⟨lines, hlines⟩ := lines_of_plain (Press.isPlain_inside resolution inner)
  have hall : Lines (Press.whole resolution (.number width) (.number height) inner).calls
      (line :: lines) := .cons hline hlines
  have hwhole : ∀ c ∈ (Press.whole resolution (.number width) (.number height) inner).calls,
      c.IsWhole := by
    rw [Press.calls_whole]
    refine List.forall_mem_cons.2 ⟨trivial, List.forall_mem_cons.2 ⟨trivial, ?_⟩⟩
    exact (Label.keepsWhole_steps hinner (Label.isWhole_first resolution)).calls
  obtain ⟨t, hdraw, ht⟩ := drawAll_of_lines hall { echo }
  obtain ⟨s, hs⟩ := render_of_whole (t := t) (by
    rw [ht]
    exact isWhole_of_lines hall hwhole)
  exact ⟨t, s, hdraw, hs⟩

end Trace

/-! ## Bytes in memory and in files -/

namespace Reader

/-- The reader on bytes in memory. -/
theorem ofSource_inMemory {library : Codec.Library} {name : String} {e : Encoding}
    (hname : Encoding.ofName library name = .ok e)
    (bytes : Array UInt8) (p : Nat) :
    ofSource library name (.inMemory bytes p) = .ok ⟨.inMemory bytes p false, e⟩ (.inMemory bytes p) := by
  unfold ofSource encodingOf
  rw [hname]
  rfl

end Reader

namespace CommandLine

/-- The reader on a file is the reader on its bytes. -/
theorem openInput_of_read {library : Codec.Library} {name : String} {e : Encoding}
    (hname : Encoding.ofName library name = .ok e)
    {tree : FileTree} {path : Path} {bytes : List UInt8}
    (hread : tree.read path = .ok (.bytes bytes)) :
    openInput library tree path name = .ok ⟨.inMemory bytes.toArray 0 false, e⟩ := by
  have hencoding : Reader.encodingOf library name = .ok e := by
    unfold Reader.encodingOf
    rw [hname]
  have hsource := Reader.ofSource_inMemory hname bytes.toArray 0
  unfold Source.inMemory at hsource
  unfold openInput
  rw [hencoding, hread]
  simp only [bind, Except.bind, Contents.known, hsource]
  rfl

end CommandLine

namespace Conversion

/-- Whatever the surface is, what a reader reads is a document or the label is at fault. -/
def IsSafe (r : Reader) (s : Settings) : Prop :=
  (∀ blank : Recording, IsProper (withSettings r s (.recording blank)).result) ∧
    ∀ echo, IsProper (withSettings r s (.trace { echo })).result

/-- A conversion stops at the commands, or at carrying them out. -/
theorem isProper_withSettings {e : Encoding} {set : Charset} (hcodec : e.codec = set.codec)
    {bytes : Array UInt8} {p : Nat} {s : Settings} {surface : Surface}
    (h : ∀ commands, (Reader.commands ⟨.inMemory bytes p false, e⟩).2 = .ok commands →
      IsProper (ofCommands commands (some s.resolution) (.number s.width) (.number s.height)
        surface).result) :
    IsProper (withSettings ⟨.inMemory bytes p false, e⟩ s surface).result := by
  unfold withSettings ofReader
  cases hcommands : (Reader.commands ⟨.inMemory bytes p false, e⟩).2 with
  | error fault => exact Or.inr ⟨fault, rfl, Reader.ofLabel_of_inMemory hcodec hcommands⟩
  | ok commands => exact h commands hcommands

variable {e : Encoding} {set : Charset} {s : Settings} {width height : Float}

/-- Bytes in memory are safe with the settings of a printer. -/
theorem isSafe_inMemory (hcodec : e.codec = set.codec) (hset : set ≠ .escapedUnicode)
    (hresolution : Settings.resolutions.any s.resolution.same = true)
    (hwidth : s.width.toFloat = .ok width) (hheight : s.height.toFloat = .ok height)
    (bytes : Array UInt8) (p : Nat) : IsSafe ⟨.inMemory bytes p false, e⟩ s := by
  refine ⟨fun blank => isProper_withSettings hcodec ?_, fun echo => isProper_withSettings hcodec ?_⟩
  · -- a recording has no lines, so it does not matter which characters the commands show
    intro commands _
    apply isProper_ofCommands hresolution
    intro inner _
    obtain ⟨r, hr⟩ := Recording.drawAll_whole (some s.resolution) hwidth hheight inner blank
    exact ⟨_, _, hr, rfl⟩
  · -- a trace has to be a text in the end, so the commands have to be whole
    intro commands hcommands
    apply isProper_ofCommands hresolution
    intro inner hinner
    have hwhole : ∀ c ∈ inner, ∀ t ∈ c.args, t.IsWhole := fun c hc =>
      Reader.isWhole_of_inMemory hcodec hset hcommands c (hinner c hc)
    obtain ⟨t, text, ht, htext⟩ :=
      Trace.drawAll_whole (some s.resolution) hwidth hheight hwhole echo
    refine ⟨_, .text text, ht, ?_⟩
    show (Document.text <$> t.render) = _
    rw [htext]
    rfl

/-- Only faults of the label end a conversion. Whatever bytes there are in memory or in a file, they
can be opened, and with the settings of a printer they give a document unless the label is at fault.
The set of characters may be any without escapes: UTF-8, Latin-1, ASCII, and the pages 1252, Latin-9
and 437. -/
theorem isSafe_withSettings {library : Codec.Library} {name : String}
    (hname : Encoding.ofName library name = .ok e)
    (hcodec : e.codec = set.codec) (hset : set ≠ .escapedUnicode)
    (hresolution : Settings.resolutions.any s.resolution.same = true)
    (hwidth : s.width.toFloat = .ok width) (hheight : s.height.toFloat = .ok height)
    (bytes : Array UInt8) :
    (∀ p, ∃ r, Reader.ofSource library name (.inMemory bytes p) = .ok r (.inMemory bytes p) ∧
      IsSafe r s) ∧
    ∀ (tree : FileTree) (path : Path), tree.read path = .ok (.bytes bytes.toList) →
      ∃ r, CommandLine.openInput library tree path name = .ok r ∧ IsSafe r s := by
  refine ⟨fun p => ?_, fun tree path hread => ?_⟩
  · exact ⟨_, Reader.ofSource_inMemory hname bytes p,
      isSafe_inMemory hcodec hset hresolution hwidth hheight bytes p⟩
  · exact ⟨_, CommandLine.openInput_of_read hname hread,
      isSafe_inMemory hcodec hset hresolution hwidth hheight _ 0⟩

/-- Bytes that are no text in UTF-8 are safe in memory and in a file. -/
theorem isSafe_withSettings_undecodable :
    (∃ r, Reader.ofSource .standard "utf-8" (.inMemory #[0x5e, 0x46, 0xff] 2) =
        .ok r (.inMemory #[0x5e, 0x46, 0xff] 2) ∧ IsSafe r {}) ∧
      ∃ r, CommandLine.openInput .standard { files := [(["label.zpl"], .bytes [0x5e, 0x46, 0xff])] }
        (.ofString "label.zpl") "utf-8" = .ok r ∧ IsSafe r {} := by
  obtain ⟨hmemory, hfile⟩ := isSafe_withSettings (s := {})
    (Encoding.ofName_standard .standard) rfl (by decide) (by decide) rfl rfl #[0x5e, 0x46, 0xff]
  exact ⟨hmemory 2, hfile _ _ rfl⟩

end Conversion

end LabelPress
