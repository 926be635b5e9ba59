/-
This file proves that a traceback tells what the failure knows.

The way down to a failure (`Leads`) ends in some context, and the backtrace is that context's own:
its frames up to the one of the failing node, with the frames that the evaluation was started in at
the bottom (`Leads.sites_eq`). Every position in it is known, so each of them is rendered with
its line, which the table of the source counts as it should (`toNat_lineOf_source`). The position of
the failing node is the span of the failure, and the snippet starts with the line of this position
(`exists_underline_eq`).
-/
import Treewalk.Proofs.Sites
import Treewalk.Proofs.Snippets
import Treewalk.Traceback

namespace Treewalk

/-! ### The context of a failure -/

namespace Context

theorem names_ancestorSites (context : Context) :
    context.ancestorSites.map Site.name = context.callers.map Frame.name := by
  have names : (context.backtrace none).sites.map Site.name = context.frames.map Frame.name :=
    names_sitesFrom none context.frames
  rw [sites_backtrace] at names
  exact (List.cons.inj names).2

theorem SameFrame.names_eq {context other : Context} (same : context.SameFrame other) :
    context.frames.map Frame.name = other.frames.map Frame.name := by
  unfold frames
  rw [List.map_cons, List.map_cons, same.name, same.callers]

end Context

/-- The frames below a body are those of the call. -/
theorem Activation.Enters.names_eq {interpreter : Interpreter} {outer inner : Activation}
    (enters : outer.Enters interpreter inner) :
    inner.state.context.callers.map Frame.name = outer.state.context.frames.map Frame.name := by
  rw [← Context.names_ancestorSites, enters.ancestorSites_eq, List.map_cons,
    Context.names_ancestorSites]
  rfl

namespace Leads

variable {interpreter : Interpreter} {failure : Failure} {start last : Activation}
  {calls : List Activation}

/-- The sites on a way are those of the context that it ends in. -/
theorem sites_eq (leads : Leads interpreter failure start calls last) :
    Activation.trail calls last ++ start.state.context.ancestorSites =
      (last.state.context.backtrace (some last.node.span)).sites := by
  induction leads with
  | here => exact (Context.sites_backtrace ..).symm
  | inFrame _ _ same _ inductionHypothesis =>
    rw [← same.ancestorSites_eq, inductionHypothesis]
  | inBody _ _ enters _ inductionHypothesis =>
    rw [Activation.trail_cons, ← enters.ancestorSites_eq, inductionHypothesis]

/-- If the positions in the frames below the one that a way starts in are known, then so are those
in the frames below the one that it ends in. -/
theorem span_isSome (leads : Leads interpreter failure start calls last)
    (known : ∀ site ∈ start.state.context.ancestorSites, site.span.isSome) :
    ∀ site ∈ last.state.context.ancestorSites, site.span.isSome := by
  induction leads with
  | here => exact known
  | inFrame _ _ same _ inductionHypothesis =>
    rw [← same.ancestorSites_eq] at known
    exact inductionHypothesis known
  | inBody _ _ enters _ inductionHypothesis =>
    refine inductionHypothesis ?_
    rw [enters.ancestorSites_eq]
    exact List.forall_mem_cons.mpr ⟨rfl, known⟩

/-- On a way, frames are opened above those that there are at its start. -/
theorem names_suffix (leads : Leads interpreter failure start calls last) :
    start.state.context.frames.map Frame.name <:+ last.state.context.frames.map Frame.name := by
  induction leads with
  | here => exact List.suffix_refl _
  | inFrame _ _ same _ inductionHypothesis =>
    rw [← same.names_eq]
    exact inductionHypothesis
  | inBody _ _ enters _ inductionHypothesis =>
    refine List.IsSuffix.trans ?_ inductionHypothesis
    rw [← enters.names_eq]
    exact List.suffix_cons ..

end Leads

/-! ### Tracebacks -/

namespace Traceback

open Source

/-- A frame and a known position in it. -/
structure Place where
  name : String
  span : Span

/-- A place in a backtrace. -/
def Place.site (place : Place) : Site := ⟨place.name, some place.span⟩

/-- The line for a place: its number is one more than the newlines in front of the place. -/
def Place.line (source file : String) (place : Place) : String :=
  "  File " ++ file ++ ", line " ++ toString (newlinesBefore source place.span.start + 1) ++
    ", in " ++ place.name ++ "\n"

theorem exists_map_site {sites : List Site} (known : ∀ site ∈ sites, site.span.isSome) :
    ∃ places : List Place, sites = places.map Place.site := by
  induction sites with
  | nil => exact ⟨[], rfl⟩
  | cons site sites inductionHypothesis =>
    obtain ⟨here, below⟩ := List.forall_mem_cons.mp known
    obtain ⟨span, position⟩ := Option.isSome_iff_exists.mp here
    obtain ⟨places, rfl⟩ := inductionHypothesis below
    exact ⟨⟨site.name, span⟩ :: places, congrArg (· :: _) (by rw [Place.site, ← position])⟩

section Short

variable {source : String} (short : byteLength source.toList < UInt32.size - 1) (file : String)

include short

theorem siteLine_site (place : Place) :
    siteLine (LineTable.ofText source.toList) source.toList file place.site =
      place.line source file := by
  unfold siteLine Place.line Place.site
  dsimp only
  rw [LineTable.fst_locate, toNat_lineOf_source short]

/-- A failure whose places are all known, as it is shown. -/
theorem render_eq {failure : Failure} {span : Span} {sites : List Site} {places : List Place}
    (located : failure.span = some span) (traced : failure.backtrace = some ⟨sites⟩)
    (known : sites.reverse = places.map Place.site) :
    render failure source file =
      "Traceback (most recent call last):\n" ++
        String.join (places.map (Place.line source file)) ++
        "Runtime Error: " ++ failure.message ++ "\n\n" ++ underline source span := by
  have shown : (places.map Place.site).map
      (siteLine (LineTable.ofText source.toList) source.toList file) =
      places.map (Place.line source file) := by
    rw [List.map_map]
    exact List.map_congr_left fun place _ => siteLine_site short file place
  unfold render
  rw [located, traced]
  dsimp only
  rw [known, shown, ← String.append_assoc]

end Short

end Traceback

/-- A failure of an evaluation from a context is shown as a heading, a line for every site of its
backtrace in reverse order, its message, and, below an empty line, the snippet of its span. The
backtrace is that of the context in which the way down to the failure ends, so the lines have the
names of that context's frames, the root first, with the frames of the starting context before all
others, and the last line is for the failing frame. Every line has a number, which is one more than
the newlines in front of its site. The snippet begins with the source line that the last of these
numbers counts. -/
theorem traceback_matches_failure (interpreter : Interpreter) (fuel : Nat) (program : Expr)
    (state after : State) (failure : Failure)
    (failed : interpreter.evaluate fuel program state = .failure failure after)
    (entered : state.context.Entered) (source file : String)
    (short : source.utf8ByteSize < UInt32.size - 1) :
    ∃ calls last, Leads interpreter failure ⟨fuel, program, { state with steps := 0 }⟩ calls last ∧
      let failing := last.state.context
      let span := last.node.span
      state.context.frames.map Frame.name <:+ failing.frames.map Frame.name ∧
      failure.span = some span ∧ failure.backtrace = some (failing.backtrace (some span)) ∧
      ∃ places : List Traceback.Place,
        (failing.backtrace (some span)).sites.reverse = places.map Traceback.Place.site ∧
        places.map Traceback.Place.name = (failing.frames.map Frame.name).reverse ∧
        places.getLast? = some ⟨failing.frame.name, span⟩ ∧
        Traceback.render failure source file =
          "Traceback (most recent call last):\n" ++
            String.join (places.map (Traceback.Place.line source file)) ++
            "Runtime Error: " ++ failure.message ++ "\n\n" ++ Source.underline source span ∧
        ∃ line rest, (Source.lines source.toList)[Source.newlinesBefore source span.start]? =
            some line ∧
          Source.underline source span =
            String.ofList (Source.shownLine (Source.withoutReturn line)) ++ "\n" ++ rest := by
  obtain ⟨calls, last, leads, happens⟩ := Expr.leads_of_failure failed
  have fits : Source.byteLength source.toList < UInt32.size - 1 := by
    rw [Source.byteLength_toList]
    exact short
  have traced : failure.backtrace =
      some (last.state.context.backtrace (some last.node.span)) := by
    rw [happens.backtrace, leads.sites_eq]
  obtain ⟨below, known⟩ := Traceback.exists_map_site (leads.span_isSome entered.span_isSome)
  let failing : Traceback.Place := ⟨last.state.context.frame.name, last.node.span⟩
  have sites : (last.state.context.backtrace (some last.node.span)).sites =
      (failing :: below).map Traceback.Place.site := by
    rw [Context.sites_backtrace, known]
    rfl
  have names : (failing :: below).map Traceback.Place.name =
      last.state.context.frames.map Frame.name := by
    rw [← Context.names_sitesFrom (some last.node.span)]
    show _ = (last.state.context.backtrace (some last.node.span)).sites.map Site.name
    rw [sites, List.map_map]
    rfl
  have reversed : (last.state.context.backtrace (some last.node.span)).sites.reverse =
      (failing :: below).reverse.map Traceback.Place.site := by
    rw [sites, List.map_reverse]
  refine ⟨calls, last, leads, leads.names_suffix, happens.span, traced,
    (failing :: below).reverse, reversed, ?_, ?_,
    Traceback.render_eq fits file happens.span traced reversed,
    Source.exists_underline_eq fits last.node.span⟩
  · rw [List.map_reverse, names]
  · rw [List.getLast?_reverse]
    rfl

/-- A function that is called from the second line of a source looks up an unbound name in the
first. -/
theorem unbound_name_in_first_line :
    let program : Expr := .array ⟨0, 16⟩ [.define ⟨0, 12⟩ (some "f") [] 0 (.lookup ⟨11, 12⟩ "x"),
      .call ⟨13, 16⟩ (.lookup ⟨13, 14⟩ "f") []]
    let state : State := .initial (Context.root Context.programName)
    let interpreter : Interpreter := .ofLimits (.bounded 5 5)
    let source := "fun f() -> x\nf()"
    let sites : List Site := [⟨"<program>", some ⟨13, 16⟩⟩, ⟨"f", some ⟨11, 12⟩⟩]
    let shown := "Traceback (most recent call last):\n" ++
      "  File main.rl, line 2, in <program>\n" ++ "  File main.rl, line 1, in f\n" ++
      "Runtime Error: var 'x' is not defined\n\n" ++ "fun f() -> x\n" ++ "           ^"
    state.context.Entered ∧ source.utf8ByteSize < UInt32.size - 1 ∧
    ∃ failure after, interpreter.evaluate 4 program state = .failure failure after ∧
      Traceback.render failure source "main.rl" = shown ∧
      ∃ places : List Traceback.Place, places.map Traceback.Place.site = sites ∧
        shown = "Traceback (most recent call last):\n" ++
          String.join (places.map (Traceback.Place.line source "main.rl")) ++
          "Runtime Error: " ++ failure.message ++ "\n\n" ++
          Source.underline source ⟨11, 12⟩ := by
  intro program state interpreter source sites shown
  have entered : state.context.Entered := Context.entered_root _
  have short : source.utf8ByteSize < UInt32.size - 1 := by decide +kernel
  have told : (match interpreter.evaluate 4 program state with
      | .failure failure _ =>
        some (failure.span, failure.backtrace, Traceback.render failure source "main.rl")
      | _ => none) = some (some ⟨11, 12⟩, some ⟨sites.reverse⟩, shown) := by
    decide +kernel
  cases ending : interpreter.evaluate 4 program state with
  | failure failure after =>
    rw [ending] at told
    obtain ⟨located, told⟩ := Prod.mk.inj (Option.some.inj told)
    obtain ⟨traced, rendered⟩ := Prod.mk.inj told
    obtain ⟨calls, last, -, -, span, backtrace, places, known, -, -, matching, -⟩ :=
      traceback_matches_failure interpreter 4 program state after failure ending entered source
        "main.rl" short
    have here : last.node.span = ⟨11, 12⟩ := Option.some.inj (span.symm.trans located)
    have same := congrArg Backtrace.sites (Option.some.inj (traced.symm.trans backtrace))
    rw [← same, List.reverse_reverse] at known
    rw [here, rendered] at matching
    exact ⟨entered, short, failure, after, rfl, rendered, places, known.symm, matching⟩
  | value | unfinished =>
    rw [ending] at told
    cases told

end Treewalk
