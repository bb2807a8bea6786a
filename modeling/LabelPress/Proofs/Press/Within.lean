import LabelPress.Proofs.Label.Bounds
import LabelPress.Proofs.Number.Resolution

/-!
# What a press asks of its surface

A press makes a new label, and then carries out any commands, whatever comes of each of them. All
calls that reach its surface behind the one that begins the page are within bounds, whatever the
resolution is (`Press.within_calls`). At the resolution of a printer this means that every length is
a number of dots, the label home included (`Press.calls_within`).

The ratio of barcodes is within bounds too, but these let through what is no number
(`Press.isRatio_calls`): a ratio is compared with two and with three, and what does not compare is
neither too small nor too large.
-/

namespace LabelPress

open Label (IsLength IsRatio Bounded maxDots)

/-- The cursor behind calls, which begins at the corner of the page. -/
def Call.cursorAfter (calls : List Call) : Float × Float :=
  calls.foldl Call.cursorFrom (0.0, 0.0)

namespace Press

/-- The calls that reach a surface from a new label on. -/
def callsFrom (resolution : Option Number) (width height : Json) (surface : Surface)
    (history : List Command) : List Call :=
  surface.reached (Label.start resolution width height).calls ++
    (start resolution width height surface).state.calls history

variable {resolution : Option Number} {home : Float → Prop}

/-- The first label is bounded if its home, the corner of the page, meets the condition. -/
theorem bounded_first (hzero : home 0.0) :
    Bounded resolution home (0.0, 0.0) { resolution } where
  resolution := rfl
  place := rfl
  homeX := hzero
  homeY := hzero
  moduleWidth := by
    show (1 : Int) ≤ 2 ∧ (2 : Int) ≤ 10
    decide
  wideRatio := by
    show IsRatio 3.0
    exact .inr ⟨by decide, by decide⟩
  barcodeHeight := by
    show (1 : Int) ≤ 10 ∧ (10 : Int) ≤ maxDots
    decide
  barcodeArgs := Label.accepted_nil

/-- Behind the call that begins the page, a new label heeds the bounds. -/
theorem within_start (resolution : Option Number) (hzero : home 0.0) (width height : Json)
    (surface : Surface) :
    ∃ cs, surface.reached (Label.start resolution width height).calls =
        .createDocument width height :: cs ∧
      (Label.bounds resolution home).Allowed (0.0, 0.0) cs ∧
      Bounded resolution home (cs.foldl Call.cursorFrom (0.0, 0.0))
        (start resolution width height surface).state.label := by
  have hlabel : Bounded resolution home (0.0, 0.0)
      (start resolution width height surface).state.label := by
    have hfirst : Bounded resolution home (0.0, 0.0) { resolution } := bounded_first hzero
    refine label_take (I := Bounded resolution home (0.0, 0.0)) ?_ _
    exact .andThen (.call hfirst _) fun _ => .call { hfirst with } _
  have hcalls : (Label.start resolution width height).calls =
      [.createDocument width height, .setFontSize (.float Label.defaultFontSize)] := rfl
  rw [hcalls]
  unfold Surface.reached
  -- a surface that refuses the document is told nothing more
  cases (surface.draw (.createDocument width height)).fault with
  | some x => exact ⟨[], rfl, trivial, hlabel⟩
  | none =>
    refine ⟨[.setFontSize (.float Label.defaultFontSize)], ?_, ⟨.usualFont, trivial⟩, hlabel⟩
    simp only [Surface.reached_singleton]

/-- All calls behind the first one are within bounds, and the label is bounded afterwards, whatever
the resolution and whatever came of the commands. -/
theorem within_calls (resolution : Option Number) (home : Float → Prop) (hzero : home 0.0)
    (hlength : ∀ x, IsLength resolution 0 maxDots x → home x) (width height : Json)
    (surface : Surface) (history : List Command) :
    ∃ cs, callsFrom resolution width height surface history = .createDocument width height :: cs ∧
      (Label.bounds resolution home).Allowed (0.0, 0.0) cs ∧
      Bounded resolution home (Call.cursorAfter cs)
        (after history (start resolution width height surface).state).label := by
  obtain ⟨cs, hcs, hallowed, hlabel⟩ :=
    within_start resolution hzero width height surface
  -- from the start on, each command heeds the watch
  obtain ⟨hrest, hlast⟩ :=
    Watch.allowed_calls (k := Label.bounds resolution home) (Label.heeds_step hlength) hlabel history
  refine ⟨cs ++ calls history (start resolution width height surface).state, ?_,
    hallowed.append hrest, ?_⟩
  · unfold callsFrom
    rw [hcs, List.cons_append]
  · unfold Call.cursorAfter
    rw [List.foldl_append]
    exact hlast

/-- Every call of a printer is within bounds. At its resolution, whatever commands are carried out one
after another, and whatever comes of each of them, the calls that reach the surface begin with the
page. Each of the others is within bounds, a box at the point to which the last call before it moved
the cursor, and the label home at numbers of dots like any other length. -/
theorem calls_within {r : Number} (hr : Settings.resolutions.any r.same = true)
    (width height : Json) (surface : Surface) (history : List Command) :
    ∃ cs, callsFrom (some r) width height surface history = .createDocument width height :: cs ∧
      ∀ before c after, cs = before ++ c :: after →
        c.Within (some r) (IsLength (some r) 0 maxDots) (Call.cursorAfter before) := by
  -- the corner of the page is no dots away from itself
  have hzero : IsLength (some r) 0 maxDots 0.0 :=
    ⟨0, by decide, by decide, Number.zero_dividedBy_of_resolution hr⟩
  obtain ⟨cs, hcs, hallowed, -⟩ := within_calls (some r) _ hzero (fun _ => id) width height
    surface history
  refine ⟨cs, hcs, ?_⟩
  rintro before c after rfl
  exact hallowed.of_split

/-- A label home, a field with a box that is wider than its line, and a refused one. -/
theorem calls_within_box :
    ∃ cs, callsFrom (some (.int 8)) (.int 100) (.int 50) (.recording {})
        (List.map Command.parse ["^LH8,16", "^FO10,20", "^GB100,50,2,W", "^GB1,1,2", "^FS"]) =
          .createDocument (.int 100) (.int 50) :: cs ∧
      ∀ before c after, cs = before ++ c :: after →
        c.Within (some (.int 8)) (IsLength (some (.int 8)) 0 maxDots) (Call.cursorAfter before) :=
  calls_within (by decide) _ _ _ _

/-- The ratio of barcodes lies between two and three, or is no number. This is so of the label after
any commands, whatever came of them, and of every barcode that the surface was asked for. A number
outside is refused by `BY`, which keeps the ratio that was set before. -/
theorem isRatio_calls (resolution : Option Number) (width height : Json) (surface : Surface)
    (history : List Command) :
    IsRatio (after history (start resolution width height surface).state).label.wideRatio ∧
      (∀ content style,
        .drawBarcode content style ∈ callsFrom resolution width height surface history →
          ∃ f x, style = .formatting f ∧ f.ratio = .float x ∧ IsRatio x) ∧
      ∀ args text x l, Argument.get? args 1 = some text → Decimal.number? text = some x →
        ¬ IsRatio x → ∃ e, (Label.step "BY" args l).fault = some (.argument e) ∧
          (Label.step "BY" args l).label.wideRatio = l.wideRatio := by
  -- no more has to be known of the label home, so that the resolution may be any
  obtain ⟨cs, hcs, hallowed, hlabel⟩ := within_calls resolution (fun _ => True) trivial
    (fun _ _ => trivial) width height surface history
  refine ⟨hlabel.wideRatio, fun content style hmem => ?_, fun args text x l htext hx hout =>
    Label.refused_of_ratio htext hx hout⟩
  rw [hcs, List.mem_cons] at hmem
  obtain ⟨before, after, rfl⟩ := List.append_of_mem (hmem.resolve_left fun h => nomatch h)
  have hwithin : Call.Within resolution _ _ _ := hallowed.of_split
  cases hwithin with
  | drawBarcode content hf =>
    obtain ⟨x, hx, hratio⟩ := hf.ratio
    exact ⟨_, x, rfl, hx, hratio⟩

/-- A ratio that is no number is kept: it is neither at least two nor at most three. -/
theorem wideRatio_nan :
    let p := (dispatch "BY" ["2", "nan", "10"]
      (start (some (.int 8)) (.int 100) (.int 50) (.recording {})).state).state
    p.label.wideRatio.isNaN = true ∧ ¬ 2.0 ≤ p.label.wideRatio ∧ ¬ p.label.wideRatio ≤ 3.0 := by
  decide

end Press

end LabelPress
