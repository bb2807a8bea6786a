import LabelPress.Files.Tree
import LabelPress.Proofs.Json.RoundTrip
import LabelPress.Proofs.Playback.Replay
import Mathlib.Data.List.Nodup

/-!
# Recordings played on recordings

The text of a recording is read back as the recording, with halves of a pair joined in its texts;
played on a recording of the same origin it leaves the same text.

What is played are not the calls that were made, but the calls that their entries say, with lengths
as floating-point numbers (`Recording.drawAll_typed`). From there on joining is all that happens to
a call: `Call.toJson_joined`.
-/

namespace LabelPress

/-! ## Calls of the kinds that are meant -/

/-- The fields of a formatting are of the kinds that are meant for them. -/
structure Formatting.IsTyped (f : Formatting) : Prop where
  symbology : ∃ t, f.symbology = .string t
  raw : ∃ ts : List Text, f.raw = .array (ts.map .string)
  orientation : ∃ t, f.orientation = .string t
  height : ∃ x, f.height = .float x
  moduleWidth : ∃ x, f.moduleWidth = .float x
  ratio : ∃ x, f.ratio = .float x
  printAbove : ∃ b, f.printAbove = .bool b
  printBelow : ∃ b, f.printBelow = .bool b
  checkDigit : ∃ b, f.checkDigit = .bool b
  mode : ∃ t, f.mode = .string t

namespace Call

/-- Calls with texts where texts are meant. What is given for a length or a colour is left to the
surface. -/
inductive IsTyped : Call → Prop
  | createDocument (width height : Json) : IsTyped (.createDocument width height)
  | moveCursor (x y : Json) : IsTyped (.moveCursor x y)
  | setFontSize (points : Json) : IsTyped (.setFontSize points)
  | drawText (t : Text) : IsTyped (.drawText (.text t))
  | drawRect (x y width height thickness : Json) (ink : Argument) :
    IsTyped (.drawRect x y width height thickness ink)
  | drawBarcode (content : Text) {f : Formatting} (hf : f.IsTyped) :
    IsTyped (.drawBarcode (.text content) (.formatting f))

/-- Calls that are recorded as they are. -/
inductive IsExact : Call → Prop
  | createDocument (w h : Float) : IsExact (.createDocument (.float w) (.float h))
  | plain {c : Call} (hplain : c.IsPlain) (htyped : c.IsTyped) : IsExact c

end Call

namespace Recording

/-- The recording on which nothing has been drawn. -/
def blank (version : Text) (source : Option Text) : Recording :=
  { version := .string version, source := source.elim .null .string }

/-- The entry of a typed call is that of an exact one. -/
theorem entry_typed {c : Call} {e : Entry} (hc : c.IsTyped) (h : entry c = .ok e) :
    ∃ p : Call, p.IsExact ∧ e = p.recorded := by
  -- each call is recorded with its lengths as floating-point numbers, and with its texts as they
  -- are
  cases hc with
  | createDocument width height =>
    obtain ⟨x, -, h⟩ := Except.bind_eq_ok.1 h
    obtain ⟨y, -, h⟩ := Except.bind_eq_ok.1 h
    exact ⟨_, .createDocument x y, (Except.ok.inj h).symm⟩
  | moveCursor =>
    obtain ⟨x, -, h⟩ := Except.bind_eq_ok.1 h
    obtain ⟨y, -, h⟩ := Except.bind_eq_ok.1 h
    exact ⟨_, .plain (.moveCursor x y) (.moveCursor _ _), (Except.ok.inj h).symm⟩
  | setFontSize =>
    obtain ⟨n, -, h⟩ := Except.bind_eq_ok.1 h
    exact ⟨_, .plain (.setFontSize n) (.setFontSize _), (Except.ok.inj h).symm⟩
  | drawText t => exact ⟨_, .plain (.drawText t) (.drawText t), (Except.ok.inj h).symm⟩
  | drawRect =>
    obtain ⟨x, -, h⟩ := Except.bind_eq_ok.1 h
    obtain ⟨y, -, h⟩ := Except.bind_eq_ok.1 h
    obtain ⟨width, -, h⟩ := Except.bind_eq_ok.1 h
    obtain ⟨height, -, h⟩ := Except.bind_eq_ok.1 h
    obtain ⟨thickness, -, h⟩ := Except.bind_eq_ok.1 h
    obtain ⟨ink, -, h⟩ := Except.bind_eq_ok.1 h
    exact ⟨_, .plain (.drawRect x y width height thickness ink) (.drawRect ..),
      (Except.ok.inj h).symm⟩
  | drawBarcode content hf =>
    obtain ⟨height, hheight⟩ := hf.height
    exact ⟨_, .plain (.drawBarcode content _ hheight) (.drawBarcode content hf),
      (Except.ok.inj h).symm⟩

/-- A call that is recorded is recorded as an exact one. -/
theorem draw_typed {c : Call} {r : Recording} (hc : c.IsTyped)
    (h : (Surface.draw c (.recording r)).fault = none) :
    ∃ p s, p.IsExact ∧ Surface.draw c (.recording r) = .done (.recording s) ∧
      Extends r s [Call.recorded p] := by
  obtain ⟨e, s, he, hdraw, hs⟩ := draw_eq_done h
  obtain ⟨p, hp, rfl⟩ := entry_typed hc he
  exact ⟨p, s, hp, hdraw, hs⟩

/-- Typed calls that a recording accepts are recorded as calls that are exact, call by call. -/
theorem drawAll_typed {cs : List Call} {r : Recording} (hcs : ∀ c ∈ cs, c.IsTyped)
    (h : (Surface.drawAll cs (.recording r)).fault = none) :
    ∃ (ps : List Call) (s : Recording), (∀ p ∈ ps, p.IsExact) ∧
      Surface.drawAll cs (.recording r) = .done (.recording s) ∧
      Extends r s (ps.map Call.recorded) := by
  induction cs generalizing r with
  | nil => exact ⟨[], r, by simp, rfl, rfl, rfl, (List.append_nil _).symm⟩
  | cons c cs ih =>
    rw [List.forall_mem_cons] at hcs
    obtain ⟨p, s, hp, hdraw, hs⟩ := draw_typed hcs.1 (Outcome.of_andThen_none h).1
    rw [Surface.drawAll, hdraw, Outcome.andThen_done] at h
    obtain ⟨ps, t, hps, hrest, ht⟩ := ih hcs.2 h
    refine ⟨p :: ps, t, List.forall_mem_cons.2 ⟨hp, hps⟩, ?_, hs.trans ht⟩
    rw [Surface.drawAll, hdraw, Outcome.andThen_done, hrest]

/-- An exact call is recorded as it is. -/
theorem draw_exact {c : Call} (h : c.IsExact) (r : Recording) :
    ∃ s, Surface.draw c (.recording r) = .done (.recording s) ∧ r.Extends s [c.recorded] := by
  cases h with
  | createDocument w h => exact draw_createDocument rfl rfl r
  | plain hplain => exact draw_plain hplain r

end Recording

/-! ## Joined calls -/

/-- The formatting with halves of a pair joined in all its texts. -/
def Formatting.joined (f : Formatting) : Formatting where
  symbology := f.symbology.joined
  raw := f.raw.joined
  orientation := f.orientation.joined
  height := f.height.joined
  moduleWidth := f.moduleWidth.joined
  ratio := f.ratio.joined
  printAbove := f.printAbove.joined
  printBelow := f.printBelow.joined
  checkDigit := f.checkDigit.joined
  mode := f.mode.joined

/-- The argument with halves of a pair joined in all its texts. -/
def Argument.joined : Argument → Argument
  | .value x => .value x.joined
  | .colour c => .colour c
  | .formatting f => .formatting f.joined

/-- The call with halves of a pair joined in all its texts. -/
def Call.joined : Call → Call
  | .createDocument w h => .createDocument w.joined h.joined
  | .moveCursor x y => .moveCursor x.joined y.joined
  | .setFontSize n => .setFontSize n.joined
  | .drawText t => .drawText t.joined
  | .drawRect x y w h t ink => .drawRect x.joined y.joined w.joined h.joined t.joined ink.joined
  | .drawBarcode content style => .drawBarcode content.joined style.joined

theorem Text.joined_ofString (s : String) : (Text.ofString s).joined = .ofString s :=
  Text.joined_of_isWhole (Text.isWhole_ofString s)

theorem Text.toString_ofString (s : String) : (Text.ofString s).toString = s := by
  unfold Text.toString Text.ofString Text.ofChars
  rw [List.map_map]
  have hid : (fun p : CodePoint => p.char?.getD '\ufffd') ∘ CodePoint.char = id := rfl
  rw [hid, List.map_id, String.ofList_toList]

/-- A formatting is joined in its fields, whose names have no halves. -/
theorem Formatting.toJson_joined (f : Formatting) : f.joined.toJson = f.toJson.joined := by
  unfold toJson
  rw [Json.joined_object, List.map_map]
  simp only [fields, List.map_cons, List.map_nil, Function.comp_apply, Text.joined_ofString]
  rfl

/-- To join an argument and to join the value it is written as are the same. -/
theorem Argument.toJson_joined (a : Argument) : a.joined.toJson = a.toJson.joined := by
  cases a with
  | value => rfl
  | colour c => exact congrArg Json.string (Text.joined_ofString c.code).symm
  | formatting f => exact f.toJson_joined

namespace Call

theorem values_joined (c : Call) : c.joined.values = c.values.map Json.joined := by
  cases c <;> simp [joined, values, Argument.toJson_joined]

theorem primitive_joined (c : Call) : c.joined.primitive = c.primitive := by
  cases c <;> rfl

end Call

/-- An entry is joined in its name and in its members. -/
theorem Entry.toJson_joined (e : Entry) :
    e.toJson.joined = Entry.toJson ⟨e.name.joined, e.args.map fun m => (m.1.joined, m.2.joined)⟩ := by
  unfold toJson
  rw [Json.joined_object, List.map_cons, List.map_cons, List.map_nil, Json.joined_object,
    Text.joined_ofString, Text.joined_ofString]

/-- The names of parameters are not changed by joining. -/
theorem Entry.args_joined (p : Primitive) (values : List Json) :
    (ofPrimitive p (values.map Json.joined)).args =
      (ofPrimitive p values).args.map fun m => (m.1.joined, m.2.joined) := by
  have hzip : (p.parameters.map Text.ofString).zip (values.map Json.joined) =
      ((p.parameters.map Text.ofString).zip values).map (Prod.map id Json.joined) :=
    List.zip_map_right
  refine hzip.trans (List.map_congr_left ?_)
  rintro ⟨name, x⟩ hm
  obtain ⟨s, -, rfl⟩ := List.mem_map.1 (List.of_mem_zip hm).1
  exact congrArg (·, x.joined) (Text.joined_ofString s).symm

/-- A call is recorded in joined form as it is joined and recorded. -/
theorem Call.toJson_joined (c : Call) : c.joined.recorded.toJson = c.recorded.toJson.joined := by
  have hname : (Json.string c.primitive.name).joined = .string c.primitive.name :=
    congrArg Json.string (Text.joined_ofString c.primitive.name)
  rw [Entry.toJson_joined]
  unfold recorded
  rw [primitive_joined, values_joined]
  refine congrArg Entry.toJson ?_
  rw [← Entry.args_joined]
  exact congrArg (Entry.mk · _) hname.symm

/-- Joining keeps the kinds of the fields. -/
theorem Formatting.IsTyped.joined {f : Formatting} (hf : f.IsTyped) : f.joined.IsTyped := by
  have htext {x : Json} : (∃ t, x = .string t) → ∃ t, x.joined = .string t :=
    fun ⟨t, ht⟩ => ⟨t.joined, congrArg Json.joined ht⟩
  have hfloat {x : Json} : (∃ y, x = .float y) → ∃ y, x.joined = .float y :=
    fun ⟨y, hy⟩ => ⟨y, congrArg Json.joined hy⟩
  have hflag {x : Json} : (∃ b, x = .bool b) → ∃ b, x.joined = .bool b :=
    fun ⟨b, hb⟩ => ⟨b, congrArg Json.joined hb⟩
  have hraw : ∃ ts : List Text, f.raw.joined = .array (ts.map .string) := by
    obtain ⟨ts, hts⟩ := hf.raw
    refine ⟨ts.map Text.joined, ?_⟩
    rw [hts, Json.joined_array, List.map_map, List.map_map]
    rfl
  exact ⟨htext hf.symbology, hraw, htext hf.orientation, hfloat hf.height, hfloat hf.moduleWidth,
    hfloat hf.ratio, hflag hf.printAbove, hflag hf.printBelow, hflag hf.checkDigit, htext hf.mode⟩

/-- Joining keeps a call exact. -/
theorem Call.IsExact.joined {c : Call} (h : c.IsExact) : c.joined.IsExact := by
  cases h with
  | createDocument w h => exact .createDocument w h
  | plain hplain htyped =>
    cases hplain with
    | moveCursor x y => exact .plain (.moveCursor x y) (.moveCursor _ _)
    | setFontSize n => exact .plain (.setFontSize n) (.setFontSize _)
    | drawText t => exact .plain (.drawText t.joined) (.drawText t.joined)
    | drawRect x y w h t c => exact .plain (.drawRect x y w h t c) (.drawRect ..)
    | drawBarcode content f hheight =>
      cases htyped with
      | drawBarcode _ hf =>
        exact .plain (.drawBarcode content.joined f.joined (congrArg Json.joined hheight))
          (.drawBarcode content.joined (hf.joined))

/-! ## Joined recordings -/

/-- Joining makes nothing empty that was not. -/
theorem Json.isTruthy_joined (x : Json) : x.joined.isTruthy = x.isTruthy := by
  cases x with
  | null | bool | number => rfl
  | string t => exact congrArg (!·) t.isEmpty_joined
  | array xs => cases xs <;> rfl
  | object ms => cases ms <;> rfl

namespace Recording

/-- The recording of calls. -/
def ofCalls (version : Text) (source : Option Text) (cs : List Call) : Recording :=
  { blank version source with entries := (cs.map Call.recorded).toArray }

variable {version : Text} {source : Option Text} {cs : List Call} {r : Recording}

/-- What is recorded of a page is what the calls say. -/
theorem toJson_of_extends (h : Extends (blank version source) r (cs.map Call.recorded)) :
    r.toJson = (ofCalls version source cs).toJson := by
  have hentries : r.entries.toList = cs.map Call.recorded := h.entries
  unfold toJson ofCalls
  rw [h.version, h.source, hentries]

/-- A recording of calls is written with its version, its calls, and its source if it has one. -/
theorem toJson_ofCalls (version : Text) (source : Option Text) (cs : List Call) :
    (ofCalls version source cs).toJson =
      .object (("version", .string version) ::
        ("commands", .array (cs.map fun c => c.recorded.toJson)) ::
          if (source.elim Json.null .string).isTruthy then
            [("source", source.elim Json.null .string)] else []) := by
  unfold toJson ofCalls blank
  simp only [List.map_map]
  rfl

/-- The value of a recording, joined, is that of a recording of joined calls. -/
theorem toJson_joined (version : Text) (source : Option Text) (cs : List Call) :
    (ofCalls version source cs).toJson.joined =
      (ofCalls version.joined (source.map Text.joined) (cs.map Call.joined)).toJson := by
  have hsource : (source.elim Json.null .string).joined =
      (source.map Text.joined).elim Json.null .string := by
    cases source <;> rfl
  have hentries : (cs.map fun c => c.recorded.toJson).map Json.joined =
      (cs.map Call.joined).map fun c => c.recorded.toJson := by
    rw [List.map_map, List.map_map]
    exact List.map_congr_left fun c _ => c.toJson_joined.symm
  rw [toJson_ofCalls, toJson_ofCalls, ← hentries, ← hsource, Json.isTruthy_joined,
    Json.joined_object, List.map_cons, List.map_cons, Json.joined_array, Text.joined_ofString,
    Text.joined_ofString]
  -- with and without a source
  split
  · rw [List.map_cons, List.map_nil, Text.joined_ofString]
    rfl
  · rfl

/-- Once joined, a recording is written the same when it is joined again. -/
theorem toJson_joined_joined (version : Text) (source : Option Text) (cs : List Call) :
    (ofCalls version source ((cs.map Call.joined).map Call.joined)).toJson =
      (ofCalls version source (cs.map Call.joined)).toJson := by
  have hentry : ∀ c : Call, c.joined.joined.recorded.toJson = c.joined.recorded.toJson := by
    intro c
    rw [Call.toJson_joined, Call.toJson_joined, Json.joined_joined]
  rw [toJson_ofCalls, toJson_ofCalls, List.map_map, List.map_map, List.map_map]
  simp only [Function.comp_def, hentry]

end Recording

/-! ## Reading the text of a recording -/

namespace Json

/-- A floating-point number that stands somewhere in a value. -/
inductive Holds (x : Float) : Json → Prop
  | float : Holds x (.float x)
  | item {y : Json} {ys : List Json} (hy : y ∈ ys) (h : Holds x y) : Holds x (.array ys)
  | member {m : Text × Json} {ms : List (Text × Json)} (hm : m ∈ ms) (h : Holds x m.2) :
    Holds x (.object ms)

/-- Every floating-point number in a value reads back. -/
def FloatsReadBack (y : Json) : Prop :=
  ∀ x : Float, y.Holds x → ReadsBack (.float x)

@[simp] theorem floatsReadBack_string (t : Text) : FloatsReadBack (.string t) := by
  intro x hx
  cases hx

@[simp] theorem floatsReadBack_bool (b : Bool) : FloatsReadBack (.bool b) := by
  intro x hx
  cases hx

/-- Of a number itself it is asked that it reads back. -/
@[simp] theorem floatsReadBack_float {x : Float} :
    FloatsReadBack (.float x) ↔ ReadsBack (.float x) := by
  refine ⟨fun h => h x .float, fun h y hy => ?_⟩
  cases hy
  exact h

/-- Of a list it is asked of its entries. -/
@[simp] theorem floatsReadBack_array {ys : List Json} :
    FloatsReadBack (.array ys) ↔ ∀ y ∈ ys, y.FloatsReadBack := by
  refine ⟨fun h y hy x hx => h x (.item hy hx), fun h x hx => ?_⟩
  cases hx with
  | item hy hx => exact h _ hy x hx

/-- Of an object it is asked of its members. -/
@[simp] theorem floatsReadBack_object {ms : List (Text × Json)} :
    FloatsReadBack (.object ms) ↔ ∀ m ∈ ms, m.2.FloatsReadBack := by
  refine ⟨fun h m hm x hx => h x (.member hm hx), fun h x hx => ?_⟩
  cases hx with
  | member hm hx => exact h _ hm x hx

end Json

theorem Json.Layout.isBlank_standard : standard.IsBlank := by
  intro c hc
  simp only [List.mem_cons, List.not_mem_nil, or_false, or_self] at hc
  rw [hc]
  rfl

/-- Members with different names still have different names when halves are joined. -/
theorem Json.nodup_names {ms : List (Text × Json)} (names : List String)
    (hms : ms.map (·.1) = names.map Text.ofString) (h : names.Nodup) :
    (ms.map (·.1.joined)).Nodup := by
  have hjoined : Text.joined ∘ Text.ofString = Text.ofString := funext Text.joined_ofString
  have hinj : Function.Injective Text.ofString := fun _ _ hst =>
    String.toList_inj.1 (Text.ofChars_injective hst)
  have hsplit : ms.map (·.1.joined) = (ms.map (·.1)).map Text.joined := by
    rw [List.map_map]
    rfl
  rw [hsplit, hms, List.map_map, hjoined]
  exact List.Nodup.map hinj h

namespace Formatting

/-- The kinds of values that the fields of a formatting have. -/
inductive IsField : Json → Prop
  | text (t : Text) : IsField (.string t)
  | texts (ts : List Text) : IsField (.array (ts.map .string))
  | length (x : Float) : IsField (.float x)
  | flag (b : Bool) : IsField (.bool b)

/-- The fields of a typed formatting are of these kinds. -/
theorem IsTyped.isField {f : Formatting} (hf : f.IsTyped) : ∀ m ∈ f.fields, IsField m.2 := by
  obtain ⟨⟨_, h1⟩, ⟨_, h2⟩, ⟨_, h3⟩, ⟨_, h4⟩, ⟨_, h5⟩, ⟨_, h6⟩, ⟨_, h7⟩, ⟨_, h8⟩, ⟨_, h9⟩,
    ⟨_, h10⟩⟩ := hf
  simp only [fields, List.forall_mem_cons, List.not_mem_nil, false_imp_iff, implies_true, and_true,
    h1, h2, h3, h4, h5, h6, h7, h8, h9, h10]
  exact ⟨.text _, .texts _, .text _, .length _, .length _, .length _, .flag _, .flag _, .flag _,
    .text _⟩

/-- A field is read back if its number is. -/
theorem IsField.legible {x : Json} (hx : IsField x) (h : x.FloatsReadBack) (depth : Nat) :
    Json.Legible (depth + 1) x := by
  cases hx with
  | text t => exact .string t
  | texts ts =>
    refine .array fun y hy => ?_
    obtain ⟨t, -, rfl⟩ := List.mem_map.1 hy
    exact .string t
  | length x => exact .number (Json.floatsReadBack_float.1 h)
  | flag b => exact .bool b

/-- A typed formatting can be read back, with its list of arguments in it. -/
theorem legible {f : Formatting} (hf : f.IsTyped) (h : f.toJson.FloatsReadBack) (depth : Nat) :
    Json.Legible (depth + 2) f.toJson := by
  refine .object ?_ ?_
  · intro m hm
    have hfloats := Json.floatsReadBack_object.1 h m hm
    obtain ⟨field, hfield, rfl⟩ := List.mem_map.1 hm
    exact (hf.isField field hfield).legible hfloats depth
  · have hnames : (f.fields.map (·.1)).Nodup := by
      have hfields : f.fields.map (·.1) = ["symbology", "raw", "orientation", "height_mm",
        "module_width_mm", "ratio", "print_above", "print_below", "check_digit", "mode"] := rfl
      rw [hfields]
      decide
    exact Json.nodup_names _ (by rw [List.map_map, List.map_map]; rfl) hnames

end Formatting

namespace Call

/-- The arguments of an exact call are read back if their numbers are. -/
theorem legible_values {c : Call} (hc : c.IsExact) (h : ∀ x ∈ c.values, x.FloatsReadBack)
    (depth : Nat) : ∀ x ∈ c.values, Json.Legible (depth + 2) x := by
  have hfloat {x : Float} (hx : Json.float x ∈ c.values) : Json.Legible (depth + 2) (.float x) :=
    .number (Json.floatsReadBack_float.1 (h _ hx))
  intro x hx
  -- call by call: the values are numbers, texts, or a formatting, which is an object of its own
  cases hc with
  | createDocument =>
    simp only [values, List.mem_cons, List.not_mem_nil, or_false] at hx
    rcases hx with rfl | rfl <;> exact hfloat (by simp [values])
  | plain hplain htyped =>
    cases hplain with
    | moveCursor =>
      simp only [values, List.mem_cons, List.not_mem_nil, or_false] at hx
      rcases hx with rfl | rfl <;> exact hfloat (by simp [values])
    | setFontSize =>
      rw [List.mem_singleton.1 hx]
      exact hfloat (by simp [values])
    | drawText t =>
      rw [List.mem_singleton.1 hx]
      exact .string t
    | drawRect =>
      simp only [values, List.mem_cons, List.not_mem_nil, or_false] at hx
      rcases hx with rfl | rfl | rfl | rfl | rfl | rfl
      all_goals first
        | exact .string _
        | exact hfloat (by simp [values])
    | drawBarcode content f =>
      cases htyped with
      | drawBarcode _ hf =>
        have hstyle := h _ (List.mem_cons_of_mem _ List.mem_cons_self)
        rcases List.mem_cons.1 hx with rfl | hx
        · exact .string content
        · rw [List.mem_singleton.1 hx]
          exact Formatting.legible hf hstyle depth

theorem length_values (c : Call) : c.primitive.parameters.length = c.values.length := by
  cases c <;> rfl

theorem nodup_parameters (p : Primitive) : p.parameters.Nodup := by
  cases p <;> decide

/-- The entry of an exact call is read back, for the parameters that name its members differ. -/
theorem legible_recorded {c : Call} (hc : c.IsExact) (h : c.recorded.toJson.FloatsReadBack)
    (depth : Nat) : Json.Legible (depth + 4) c.recorded.toJson := by
  have hargs : Json.FloatsReadBack (.object c.recorded.args) :=
    Json.floatsReadBack_object.1 h ("args", .object c.recorded.args) (by simp)
  have hvalues : ∀ x ∈ c.values, x.FloatsReadBack := by
    intro x hx
    -- every value stands behind the name of its parameter
    have hsecond : c.recorded.args.map Prod.snd = c.values :=
      List.map_snd_zip (by simp [length_values])
    rw [← hsecond] at hx
    obtain ⟨m, hm, rfl⟩ := List.mem_map.1 hx
    exact Json.floatsReadBack_object.1 hargs m hm
  have hnames : c.recorded.args.map (·.1) = c.primitive.parameters.map Text.ofString :=
    List.map_fst_zip (by simp [length_values])
  have hobject : Json.Legible (depth + 3) (.object c.recorded.args) :=
    .object (fun m hm => legible_values hc hvalues depth m.2 (List.of_mem_zip hm).2)
      (Json.nodup_names _ hnames (nodup_parameters c.primitive))
  refine .object ?_ (Json.nodup_names ["name", "args"] rfl (by decide))
  rw [List.forall_mem_cons, List.forall_mem_singleton]
  exact ⟨.string _, hobject⟩

end Call

/-- So is the whole recording, with its version and source. -/
theorem Recording.legible {version : Text} {source : Option Text} {cs : List Call}
    (hcs : ∀ c ∈ cs, c.IsExact) (h : (ofCalls version source cs).toJson.FloatsReadBack)
    (depth : Nat) : Json.Legible (depth + 6) (ofCalls version source cs).toJson := by
  rw [toJson_ofCalls] at h ⊢
  have hentries := Json.floatsReadBack_object.1 h
    ("commands", .array (cs.map fun c => c.recorded.toJson)) (by simp)
  have hcommands : Json.Legible (depth + 5) (.array (cs.map fun c => c.recorded.toJson)) := by
    refine .array fun x hx => ?_
    have hfloats := Json.floatsReadBack_array.1 hentries x hx
    obtain ⟨c, hc, rfl⟩ := List.mem_map.1 hx
    exact Call.legible_recorded (hcs c hc) hfloats depth
  -- the source is a text, if it is there at all
  refine .object ?_ ?_
  · rw [List.forall_mem_cons, List.forall_mem_cons]
    refine ⟨.string version, hcommands, ?_⟩
    cases source with
    | none => simp [Json.isTruthy]
    | some t =>
      split
      · rw [List.forall_mem_singleton]
        exact .string t
      · simp
  · split
    · exact Json.nodup_names ["version", "commands", "source"] rfl (by decide)
    · exact Json.nodup_names ["version", "commands"] rfl (by decide)

/-! ## Playing the text of a recording -/

namespace Playback

variable {version : Text} {source : Option Text} {cs : List Call} {r : Recording}

theorem entryCall_exact {c : Call} (h : c.IsExact) : entryCall c.recorded.toJson = .ok c := by
  cases h with
  | createDocument w h => exact entryCall_createDocument _ _
  | plain hplain => exact entryCall_recorded hplain

/-- The text of a recording is read as the recording of the joined calls. -/
theorem parse_ofCalls {version : Text} {source : Option Text} {cs : List Call}
    (hcs : ∀ c ∈ cs, c.IsExact)
    (hfloats : (Recording.ofCalls version source cs).toJson.FloatsReadBack) :
    Json.parse ((Recording.ofCalls version source cs).render .standard) =
      .ok (Recording.ofCalls version.joined (source.map Text.joined) (cs.map Call.joined)).toJson := by
  have hlegible := Recording.legible hcs hfloats 984
  unfold Recording.render
  rw [Json.parse_render Json.Layout.isBlank_standard hlegible, Recording.toJson_joined]

/-- A recording of exact calls is a recorded drawing, and playing it is making these calls. -/
theorem run_ofCalls (version : Text) (source : Option Text) {cs : List Call}
    (hcs : ∀ c ∈ cs, c.IsExact) (s : Surface) :
    Drawing.schema.check (Recording.ofCalls version source cs).toJson = none ∧
      run (Recording.ofCalls version source cs).toJson s = s.drawAll cs := by
  have hversion : (Recording.ofCalls version source cs).version = .string version := rfl
  have hsource : (Recording.ofCalls version source cs).source = .null ∨
      ∃ t, (Recording.ofCalls version source cs).source = .string t := by
    cases source with
    | none => exact .inl rfl
    | some t => exact .inr ⟨t, rfl⟩
  have hentries : (Recording.ofCalls version source cs).entries.toList = cs.map Call.recorded := rfl
  exact ⟨Drawing.check_eq_none.2 (isDrawing_recorded hversion hsource hentries),
    run_toJson hversion hsource hentries (fun c hc => entryCall_exact (hcs c hc)) s⟩

/-- Typed calls that are recorded leave a text that can be played. It is read as a recorded drawing,
and playing this on a recording with the same version and source leaves the same text. What is
assumed is that the floating-point numbers in the recording are read back as they are written. -/
theorem run_recorded {version : Text} {source : Option Text} {cs : List Call} {r : Recording}
    (hcs : ∀ c ∈ cs, c.IsTyped)
    (hdraw : Surface.drawAll cs (.recording (.blank version source)) = .done (.recording r))
    (hfloats : r.toJson.FloatsReadBack) (tree : FileTree) :
    ∃ payload copy, tree.payload (.string (r.render .standard)) = .ok payload ∧
      Drawing.schema.check payload = none ∧
      run payload (.recording (.blank version source)) = .done (.recording copy) ∧
      (Surface.recording copy).finish.2 = (Surface.recording r).finish.2 := by
  obtain ⟨ps, s, hps, hdone, hextends⟩ := Recording.drawAll_typed hcs (by rw [hdraw]; rfl)
  obtain rfl : r = s := by
    rw [hdraw] at hdone
    cases hdone
    rfl
  have hvalue := Recording.toJson_of_extends hextends
  have hjoined : ∀ p ∈ ps.map Call.joined, p.IsExact := by
    intro p hp
    obtain ⟨q, hq, rfl⟩ := List.mem_map.1 hp
    exact (hps q hq).joined
  -- what is read is the recording of the joined calls, which are made again
  have hparse := parse_ofCalls hps (hvalue ▸ hfloats)
  rw [Recording.render, ← hvalue] at hparse
  obtain ⟨copy, hcopy, hcopied⟩ := Recording.drawAll_of_draw
    (fun p hp => Recording.draw_exact (hjoined p hp)) (.blank version source)
  obtain ⟨hcheck, hrun⟩ := run_ofCalls version.joined (source.map Text.joined) hjoined
    (.recording (.blank version source))
  have hpayload : tree.payload (.string (r.render .standard)) =
      .ok (Recording.ofCalls version.joined (source.map Text.joined)
        (ps.map Call.joined)).toJson := by
    unfold FileTree.payload
    simp only [Text.toString_ofString, Recording.render, hparse]
  -- the copy has the origin of the recording, and is written as what was read
  have hsame : Json.render .standard copy.toJson = Json.render .standard r.toJson := by
    rw [← Json.render_joined _ copy.toJson, ← Json.render_joined _ r.toJson,
      Recording.toJson_of_extends hcopied, hvalue, Recording.toJson_joined,
      Recording.toJson_joined, Recording.toJson_joined_joined]
  exact ⟨_, copy, hpayload, hcheck, hrun.trans hcopy,
    congrArg (fun text => Except.ok (Document.text text)) hsame⟩

/-- A cursor that was moved by an integer, text beyond ASCII and a barcode, played on a second
recording. -/
theorem run_recorded_barcode : ∃ r payload copy,
    Surface.drawAll [.moveCursor (.float 1.5) (.int 2), .drawText (.text "é😀\n"),
        .drawBarcode (.text "A-1") (.formatting { raw := .array [.string "N", .string ""] })]
      (.recording (.blank "1.0" (some "label.zpl"))) = .done (.recording r) ∧
    FileTree.payload {} (.string (r.render .standard)) = .ok payload ∧
    run payload (.recording (.blank "1.0" (some "label.zpl"))) = .done (.recording copy) ∧
    (Surface.recording copy).finish.2 = (Surface.recording r).finish.2 := by
  have hcs : ∀ c ∈ ([.moveCursor (.float 1.5) (.int 2), .drawText (.text "é😀\n"),
      .drawBarcode (.text "A-1") (.formatting { raw := .array [.string "N", .string ""] })] :
        List Call), c.IsTyped := by
    have hformatting : Formatting.IsTyped { raw := .array [.string "N", .string ""] } :=
      ⟨⟨_, rfl⟩, ⟨["N", ""], rfl⟩, ⟨_, rfl⟩, ⟨_, rfl⟩, ⟨_, rfl⟩, ⟨_, rfl⟩, ⟨_, rfl⟩, ⟨_, rfl⟩,
        ⟨_, rfl⟩, ⟨_, rfl⟩⟩
    simp only [List.forall_mem_cons, List.not_mem_nil, false_imp_iff, implies_true, and_true]
    exact ⟨.moveCursor _ _, .drawText _, .drawBarcode _ hformatting⟩
  have hdraw : Surface.drawAll [.moveCursor (.float 1.5) (.int 2), .drawText (.text "é😀\n"),
        .drawBarcode (.text "A-1") (.formatting { raw := .array [.string "N", .string ""] })]
      (.recording (.blank "1.0" (some "label.zpl"))) = .done (.recording
        { Recording.ofCalls "1.0" (some "label.zpl")
            [.moveCursor (.float 1.5) (.float 2.0), .drawText (.text "é😀\n"),
              .drawBarcode (.text "A-1")
                (.formatting { raw := .array [.string "N", .string ""] })] with
          x := 1.5, y := 2.0 }) := rfl
  have hfloats : (Recording.ofCalls "1.0" (some "label.zpl")
      [.moveCursor (.float 1.5) (.float 2.0), .drawText (.text "é😀\n"), .drawBarcode (.text "A-1")
        (.formatting { raw := .array [.string "N", .string ""] })]).toJson.FloatsReadBack := by
    have hsource : ((some ("label.zpl" : Text)).elim Json.null .string).isTruthy = true := rfl
    rw [Recording.toJson_ofCalls, if_pos hsource]
    simp only [Entry.toJson, Call.recorded, Entry.ofPrimitive, Call.primitive, Primitive.parameters,
      Call.values, Argument.toJson, Formatting.toJson, Formatting.fields, List.map_cons,
      List.map_nil, List.zip_cons_cons, List.zip_nil_right, Option.elim_some,
      Json.floatsReadBack_object, List.mem_cons, List.not_mem_nil, or_false, forall_eq_or_imp,
      forall_eq, Json.floatsReadBack_string, Json.floatsReadBack_array, Json.floatsReadBack_float,
      Json.floatsReadBack_bool, and_true, true_and, and_self]
    -- the cursor and the three lengths of the formatting are left
    decide +kernel
  obtain ⟨payload, copy, hpayload, -, hrun, hsame⟩ := run_recorded hcs hdraw hfloats {}
  exact ⟨_, payload, copy, hdraw, hpayload, hrun, hsame⟩

end Playback

end LabelPress
