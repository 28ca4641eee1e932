-- Cycles are reported before anything else. The order of the nodes is asked
-- for as soon as the verdict lets a graph through, and it goes by the ids and
-- the edges alone. So a graph with a cycle fails with one and the same
-- report, whatever its nodes would have been made of.
import Flowscript.Proofs.Closure

namespace Flowscript

open Relation
open RunOrder (Feeds)

/-! ## The order of a graph with a cycle -/

/-- Where a known node leads back to itself no order is found, and the node that is named instead
leads back to itself too. -/
theorem RunOrder.order_eq_error_of_cycle {ids : List String} {edges : List Link} {a : String}
    (h : TransGen (Feeds ids edges) a a) :
    ∃ n, order ids edges = .error n ∧ TransGen (Feeds ids edges) n n := by
  have hends := order_ends ids edges
  cases hr : order ids edges with
  | ok r => exact absurd (idxOf_lt_of_transGen (order_forward hr).2.2 h) (lt_irrefl _)
  | error n =>
    rw [hr] at hends
    exact ⟨n, rfl, TransGen.mono (fun _ _ => precedes_knownLinks.mp) _ _ hends⟩

theorem RunOrder.outcome_orderTraced {ids : List String} {edges : List Link} {n : String}
    (h : order ids edges = .error n) : (orderTraced ids edges).outcome = .error (.cycle n) := by
  unfold orderTraced
  rw [Traced.outcome_bind, Traced.outcome_forEach_note, h]
  rfl

/-- No plan is made of a graph with a cycle. -/
theorem Plan.outcome_build {g : Graph} {n : String}
    (h : RunOrder.order (g.nodes.map Node.id) (links g) = .error n) (c : Choices) :
    (build g c).outcome = .error (.cycle n) := by
  unfold build
  rw [Traced.outcome_bind, RunOrder.outcome_orderTraced h]
  rfl

/-! ## The report -/

theorem Fault.report_cycle (n : String) :
    (Fault.cycle n).report = "Circular dependency detected involving node: " ++ n := by
  have hmessage :
      (Fault.cycle n).message = "Circular dependency detected involving node: " ++ n := rfl
  rw [report, hmessage, if_neg (by simp)]

namespace Compiler

/-- Behind a verdict that lets the graph through, planning comes first. -/
theorem outcome_bundle_of_cycle {k : Compiler} {g : Graph} {j : Judgement} {verdict : Verdict}
    {n : String} (hjudged : (k.judge g j).outcome = .ok verdict) (hvalid : verdict.valid = true)
    (h : RunOrder.order (g.nodes.map Node.id) (Plan.links g) = .error n) (o : Options) :
    (k.bundle g o j).outcome = .error (.cycle n) := by
  unfold bundle
  simp only [Traced.outcome_bind, hjudged, Except.bind, hvalid, Bool.not_true, Bool.false_eq_true,
    if_false, Plan.outcome_build h]

/-- Ids and edges with a cycle among them name one node on a cycle, and it is the one that every
compilation of a graph with these ids and edges reports, once the verdict lets the graph through. The
types and settings of the nodes, the names, the options and the setup of the compiler have no part in
it, and neither has the way in which graph and options are given. -/
theorem a_cycle_is_reported_before_anything_else {ids : List String} {edges : List RunOrder.Link}
    {a : String} (hcycle : TransGen (Feeds ids edges) a a) :
    ∃ n, TransGen (Feeds ids edges) n n ∧
      ∀ (k : Compiler) (g : Graph) (o : Options) (j : Judgement) (verdict : Verdict),
        g.nodes.map Node.id = ids → g.edges.map (fun e => (e.source, e.target)) = edges →
        (k.judge g j).outcome = .ok verdict → verdict.valid = true →
        (k.compile g o j).result = .error ("Circular dependency detected involving node: " ++ n) ∧
        ∀ graph options, Graph.ofValue graph = .ok g → Options.ofValue options = .ok o →
          (k.compileValues graph options j).result =
            .error ("Circular dependency detected involving node: " ++ n) := by
  obtain ⟨n, horder, hn⟩ := RunOrder.order_eq_error_of_cycle hcycle
  refine ⟨n, hn, fun k g o j verdict hids hedges hjudged hvalid => ?_⟩
  have hreport : (k.compile g o j).result =
      .error ("Circular dependency detected involving node: " ++ n) := by
    subst hids hedges
    rw [compile, result_report, outcome_bundle_of_cycle hjudged hvalid horder o,
      Except.mapError, Fault.report_cycle]
  refine ⟨hreport, fun graph options hgraph hoptions => ?_⟩
  rw [compileValues_eq hgraph hoptions, hreport]

/-- A pair of nodes that wait for each other, behind one that waits for both. -/
def knot (first second third : String × Fields) (name : String) : Graph := ⟨"w", name, none,
  [⟨"c", first.1, first.2⟩, ⟨"b", second.1, second.2⟩, ⟨"a", third.1, third.2⟩],
  [⟨"1", "b", "c"⟩, ⟨"2", "a", "b"⟩, ⟨"3", "b", "a"⟩, ⟨"4", "x", "c"⟩]⟩

/-- Settings that would be refused, unknown types and a given verdict make no difference. -/
theorem a_knot_is_reported_alike :
    ∃ n, TransGen (Feeds ["c", "b", "a"] [("b", "c"), ("a", "b"), ("b", "a"), ("x", "c")]) n n ∧
      (compile { started := ⟨2026, 1, 1, 0, 0, 0, 0, none⟩ }
        (knot ("utility.delay", [("delayMs", .text "soon")]) ("x", []) ("y", []) "One") {}
        .ask).result = .error ("Circular dependency detected involving node: " ++ n) ∧
      (compile { started := ⟨2027, 1, 1, 0, 0, 0, 0, none⟩, settings := { version := "2" } }
        (knot ("utility.logger", []) ("trigger.webhook", []) ("y", [("a", .null)]) "Two")
        { includeLogging := some false } (.given ⟨true, [], [], [], 0⟩)).result =
          .error ("Circular dependency detected involving node: " ++ n) := by
  have hloop : TransGen (Feeds ["c", "b", "a"] [("b", "c"), ("a", "b"), ("b", "a"), ("x", "c")])
      "a" "a" :=
    .tail (.single (b := "b") ⟨by simp, by simp, by simp⟩) ⟨by simp, by simp, by simp⟩
  obtain ⟨n, hn, hreports⟩ := a_cycle_is_reported_before_anything_else hloop
  exact ⟨n, hn, (hreports _ _ _ _ _ rfl rfl rfl rfl).1, (hreports _ _ _ _ _ rfl rfl rfl rfl).1⟩

end Compiler

end Flowscript
