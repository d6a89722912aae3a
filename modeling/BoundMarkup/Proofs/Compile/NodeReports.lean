/-
  BoundMarkup.Proofs.Compile.NodeReports
  ──────────────────────────────────────
  **A BROKEN DOCUMENT IS REPORTED AS SUCH, AND AS NOTHING ELSE.**

  Once the markup controls of a view are there, its tree is resolved whatever is
  wrong with its nodes; and if anything is, the view is refused with one report
  for each error noted in the tree.  Among them are the problems with the nesting
  of the document, each of them once and at its place.  Main statement:
  `nodeErrors_reported`.
-/
import BoundMarkup.Proofs.Compile.Ledger
import BoundMarkup.Proofs.Compile.Validity
import BoundMarkup.Proofs.View.NodeErrors

namespace BoundMarkup

open Markup (Document Element EndTag Mark)

/-! ## §1. Trees with errors. -/

/-- **With its directives and its root known**, a document has a tree. -/
theorem ControlTree.exists_ofDocument (s : ControlScope) (path : String) {kind : ViewKind}
    {d : Document} {directives : Directives} {metadata : ControlMetadata}
    (hdirectives : Directives.ofDocument s.types kind d = .ok directives)
    (hbase : s.types.controlMetadata? (rootType kind directives) = some metadata) :
    ∃ t, ControlTree.ofDocument s path kind d = .ok t := by
  unfold ControlTree.ofDocument
  rw [hdirectives]
  dsimp only [bind, Except.bind]
  rw [hbase]
  exact ⟨_, rfl⟩

namespace Compiler

/-- Errors noted in a tree are reported before anything else is checked. -/
theorem tree_of_nodeErrors {c : Compiler} {path : String} {d : Document}
    {controls : List (String × CompiledView)} {t : ControlTree}
    (ht : ControlTree.ofDocument (c.scope controls) path (.ofPath path) d = .ok t)
    (hne : t.nodeErrors ≠ []) :
    c.tree path d controls = .error (.reports (t.nodeErrors.map (NodeError.report path))) := by
  have hpath := (ControlTree.ofDocument_eq_ok ht).1
  have hreports : t.errorReports = t.nodeErrors.map (NodeError.report path) := by
    unfold ControlTree.errorReports
    rw [t.nodeReports_eq, hpath]
    obtain ⟨x, xs, hxs⟩ := List.exists_cons_of_ne_nil hne
    rw [hxs]
    rfl
  unfold tree
  rw [ht]
  show (Failure.unlessNone t.errorReports >>= _) = _
  rw [hreports]
  unfold Failure.unlessNone
  rw [if_neg]
  · rfl
  · rw [List.isEmpty_iff, List.map_eq_nil_iff]
    exact hne

/-- A view with a document is refused for a cycle, or else its tree decides whether it is refused
for it. -/
theorem Outcome.of_tree_error {c : Compiler} {table : String → Option CompiledView}
    {chain : List String} {path : String} {out : Except Failure Artifact} {file : MarkupFile}
    {d : Document} (h : c.Outcome table chain path out) (hread : c.read path = .ok (file, d)) :
    (∃ walk span, out = .error (.error (.cycle walk span)))
      ∨ ∃ controls, Answered table chain (markupReferences c.options d) controls
        ∧ ∀ failure, c.tree path d controls = .error failure → out = .error failure := by
  cases h with
  | unread hread' =>
      rw [hread] at hread'
      cases hread'
  | controlCycle => exact .inl ⟨_, _, rfl⟩
  | masterCycle => exact .inl ⟨_, _, rfl⟩
  | faulty hread' hr ht =>
      rw [hread] at hread'
      cases hread'
      refine .inr ⟨_, hr, fun failure hfailure => ?_⟩
      rw [ht] at hfailure
      rw [Except.error.inj hfailure]
  | plain hread' hr ht | mastered hread' hr ht =>
      rw [hread] at hread'
      cases hread'
      refine .inr ⟨_, hr, fun failure hfailure => ?_⟩
      rw [ht] at hfailure
      cases hfailure

end Compiler

/-! ## §2. Reports. -/

namespace Report

/-- What the report says, and about which place. -/
def Says (r : Report) (span : Span) (message : String) : Prop :=
  r.line = counted span.line ∧ r.column = counted span.col ∧ r.message = message

instance (r : Report) (span : Span) (message : String) : Decidable (r.Says span message) :=
  inferInstanceAs (Decidable (_ ∧ _ ∧ _))

/-- **Lines and columns are told apart** in reports as long as 32 bits are enough for them. -/
theorem counted_inj {m n : Nat} (hm : m < UInt32.size) (hn : n < UInt32.size)
    (h : counted m = counted n) : m = n := by
  have hbits : BitVec.ofNat 32 m = BitVec.ofNat 32 n :=
    congrArg Int32.toBitVec (Int32.toInt_inj.1 h)
  have hmod : m % UInt32.size = n % UInt32.size := by
    have hnat := congrArg BitVec.toNat hbits
    rwa [BitVec.toNat_ofNat, BitVec.toNat_ofNat] at hnat
  rwa [Nat.mod_eq_of_lt hm, Nat.mod_eq_of_lt hn] at hmod

end Report

namespace Compiler

/-- **The problem is noted once**, and it is where the note says. -/
structure NotedOnce (content : String) (errors : List NodeError) (lead : List Char)
    (message : String) (span : Span) : Prop where
  once : errors.count ⟨.malformed message, span⟩ = 1
  place : ∃ outer, (⟨lead, span⟩ : Mark).StandsIn content.toList outer

/-- **The problem is reported once**, with its line, its column and its message.  A report has 32
bits for each of the two: as long as these are enough no other report says the same, and with one
bit fewer they are the very line and column. -/
structure ReportedOnce (content path : String) (reports : List Report) (message : String)
    (span : Span) : Prop where
  reported : ⟨path, Report.counted span.line, Report.counted span.col, "ControlTree", message⟩
    ∈ reports
  once : content.length + 1 < UInt32.size →
    reports.countP (fun r => decide (r.Says span message)) = 1
  verbatim : 2 * (content.length + 1) < UInt32.size →
    Report.counted span.line = span.line ∧ Report.counted span.col = span.col

section Problems

variable {content : String} {s : ControlScope} {path : String} {kind : ViewKind} {d : Document}
  {t : ControlTree} (hdoc : document content = .ok d)
  (ht : ControlTree.ofDocument s path kind d = .ok t)

include hdoc ht

theorem count_of_mem_problems {x : NodeError} (hx : x ∈ d.problems) :
    t.nodeErrors.count x = 1 := by
  have hperm := ControlTree.perm_problems ht
  have hsubject : x.fault.subject = .nesting :=
    of_decide_eq_true (List.mem_filter.1 (hperm.mem_iff.2 hx)).2
  calc t.nodeErrors.count x
      = (NodeError.about .nesting t.nodeErrors).count x :=
        (NodeError.count_about hsubject).symm
    _ = d.problems.count x := hperm.count_eq x
    _ = 1 := List.count_eq_one_of_mem (problem_places_nodup hdoc).of_map hx

variable {message : String} {span : Span} (hx : ⟨.malformed message, span⟩ ∈ d.problems)
  {c : Char} (hc : c ≠ '\'') (hletters : message.toList.take 2 = [c, 'l'])

include hx hc hletters

/-- **What is reported at the place of a problem with its message** is that problem. -/
theorem says_iff_of_mem_problems (hfits : content.length + 1 < UInt32.size) {y : NodeError}
    (hy : y ∈ t.nodeErrors) :
    (y.report path).Says span message ↔ y = ⟨.malformed message, span⟩ := by
  constructor
  · intro hsays
    obtain ⟨hline, hcol, hmessage⟩ := hsays
    -- By its message it is about the nesting, so it is a problem of the document too.
    have hfault : y.fault = .malformed y.fault.message := by
      refine NodeFault.eq_malformed_of_letters hc ?_
      rw [← hletters, ← hmessage]
      rfl
    have hproblem : y ∈ d.problems := by
      refine (ControlTree.perm_problems ht).mem_iff.1 (List.mem_filter.2 ⟨hy, ?_⟩)
      rw [hfault]
      rfl
    -- Both are in the file, where a line and a column are enough to tell them apart.
    have hwithin : span.line ≤ content.length + 1 ∧ span.col ≤ content.length + 1 :=
      problem_within hdoc hx
    have hwithin' := problem_within hdoc hproblem
    have hlines : y.span.line = span.line :=
      Report.counted_inj (by omega) (by omega) hline
    have hcols : y.span.col = span.col :=
      Report.counted_inj (by omega) (by omega) hcol
    exact List.inj_on_of_nodup_map (problem_places_nodup hdoc) hproblem hx
      (Span.place_eq_iff.2 ⟨hlines, hcols⟩)
  · rintro rfl
    exact ⟨rfl, rfl, rfl⟩

/-- A problem of the document is reported once. -/
theorem reportedOnce_of_mem_problems {reports : List Report}
    (hreports : d.problems ≠ [] → reports = t.nodeErrors.map (NodeError.report path)) :
    ReportedOnce content path reports message span := by
  have hcount := count_of_mem_problems hdoc ht hx
  obtain rfl := hreports (List.ne_nil_of_mem hx)
  refine ⟨?_, fun hfits => ?_, fun hfits => ?_⟩
  · exact List.mem_map_of_mem (f := NodeError.report path)
      (List.count_pos_iff.1 (hcount ▸ Nat.one_pos))
  · rw [← hcount, List.countP_map]
    refine List.countP_congr fun y hy => ?_
    show decide ((y.report path).Says span message) = true ↔ (y == ⟨.malformed message, span⟩) = true
    rw [decide_eq_true_iff, beq_iff_eq]
    exact says_iff_of_mem_problems hdoc ht hx hc hletters hfits hy
  · have hwithin : span.line ≤ content.length + 1 ∧ span.col ≤ content.length + 1 :=
      problem_within hdoc hx
    have hsize : UInt32.size = 4294967296 := rfl
    exact ⟨Int32.toInt_ofNat_of_lt (by omega), Int32.toInt_ofNat_of_lt (by omega)⟩

omit hx hc hletters

variable {reports : List Report}
  (hreports : d.problems ≠ [] → reports = t.nodeErrors.map (NodeError.report path))

include hreports

/-- **An element without an end tag** is noted once and reported once, at any depth. -/
theorem unclosed_reported {e : Element} {children : List Markup.Node}
    (he : Markup.Node.element e children ∈ Markup.Node.preorderOf d.nodes)
    (hunclosed : e.unclosed = true) :
    NotedOnce content t.nodeErrors ('<' :: e.name.text.toList)
        ("element <" ++ e.name.text ++ "> is not closed") e.span
      ∧ ReportedOnce content path reports ("element <" ++ e.name.text ++ "> is not closed")
        e.span := by
  have hproblem : ⟨.malformed ("element <" ++ e.name.text ++ "> is not closed"), e.span⟩
      ∈ d.problems := by
    refine List.mem_flatMap.2 ⟨_, he, ?_⟩
    show _ ∈ ownErrors e
    unfold ownErrors Element.errors
    rw [if_pos hunclosed]
    exact List.mem_singleton_self _
  have hletters : ("element <" ++ e.name.text ++ "> is not closed").toList.take 2
      = ['e', 'l'] := by
    rw [String.toList_append, String.toList_append, List.append_assoc]
    rfl
  have hstands := (document_marks hdoc).2 _ (List.mem_flatMap.2 ⟨_, he, List.mem_cons_self⟩)
  exact ⟨⟨count_of_mem_problems hdoc ht hproblem, hstands⟩,
    reportedOnce_of_mem_problems hdoc ht hproblem (by decide) hletters hreports⟩

/-- **So is an end tag without an element.** -/
theorem stray_reported {tag : EndTag}
    (htag : Markup.Node.stray tag ∈ Markup.Node.preorderOf d.nodes) :
    NotedOnce content t.nodeErrors ('<' :: '/' :: tag.name.text.toList) tag.strayMessage tag.span
      ∧ ReportedOnce content path reports tag.strayMessage tag.span := by
  have hproblem : ⟨.malformed tag.strayMessage, tag.span⟩ ∈ d.problems :=
    List.mem_flatMap.2 ⟨_, htag, List.mem_singleton_self _⟩
  have hletters : tag.strayMessage.toList.take 2 = ['c', 'l'] := by
    unfold EndTag.strayMessage
    rw [String.toList_append, String.toList_append, List.append_assoc]
    rfl
  have hstands := (document_marks hdoc).2 _ (List.mem_flatMap.2 ⟨_, htag, List.mem_singleton_self _⟩)
  exact ⟨⟨count_of_mem_problems hdoc ht hproblem, hstands⟩,
    reportedOnce_of_mem_problems hdoc ht hproblem (by decide) hletters hreports⟩

end Problems

/-- **ERRORS OF NODES ARE REPORTED, AND NOTHING BESIDES.**  After any requests, take a view whose
file can be read, whose directives and root are known, and that is not refused for a cycle.  Its
tree was resolved with the markup controls that the cache has for its references.  If there is
anything wrong with the nesting of its document, or any other error is noted in its tree, then
the view is refused with a report for each of the errors noted, with its place and its message.
Each problem with the nesting is among them, once, and one report is about it. -/
theorem nodeErrors_reported (c : Compiler) (paths : List String) {path : String}
    {v : CompiledView} {file : MarkupFile} {d : Document} {directives : Directives}
    {metadata : ControlMetadata}
    (hv : (c.compileAll paths .empty).2.find? path = some v)
    (hread : c.read path = .ok (file, d))
    (hdirectives : Directives.ofDocument c.types (.ofPath path) d = .ok directives)
    (hbase : c.types.controlMetadata? (rootType (.ofPath path) directives) = some metadata)
    (hcycle : ∀ r ∈ v.reports, r.className ≠ "DependencyCycle") :
    ∃ controls t, controls.map Prod.fst = (markupReferences c.options d).map Prod.fst
      ∧ (∀ entry ∈ controls, (c.compileAll paths .empty).2.find? entry.1 = some entry.2)
      ∧ ControlTree.ofDocument (c.scope controls) path (.ofPath path) d = .ok t
      ∧ (d.problems ≠ [] ∨ t.nodeErrors ≠ [] →
        v = .refused path (t.nodeErrors.map fun x => ⟨path, Report.counted x.span.line,
            Report.counted x.span.col, "ControlTree", x.fault.message⟩)
          ∧ ∀ r ∈ v.reports, r.className = "ControlTree")
      ∧ (NodeError.about .nesting t.nodeErrors).Perm d.problems
      ∧ (∀ e children, Markup.Node.element e children ∈ Markup.Node.preorderOf d.nodes →
        e.unclosed = true →
          NotedOnce file.content t.nodeErrors ('<' :: e.name.text.toList)
              ("element <" ++ e.name.text ++ "> is not closed") e.span
            ∧ ReportedOnce file.content path v.reports
              ("element <" ++ e.name.text ++ "> is not closed") e.span)
      ∧ ∀ tag, Markup.Node.stray tag ∈ Markup.Node.preorderOf d.nodes →
        NotedOnce file.content t.nodeErrors ('<' :: '/' :: tag.name.text.toList)
            tag.strayMessage tag.span
          ∧ ReportedOnce file.content path v.reports tag.strayMessage tag.span := by
  have hpath : v.path = path := lookup_path hv
  obtain ⟨earlier, hearlier, chain, out, -, hout, hview⟩ :=
    (c.compileAll_settled paths).justified hv
  rw [hpath] at hout hview
  rcases hout.of_tree_error hread with ⟨walk, span, rfl⟩ | ⟨controls, hanswered, hfails⟩
  · -- A view that is refused for a cycle says so.
    refine absurd (Report.about_className _ _ _ _) (hcycle ((ViewError.cycle walk span).report path)
      ?_)
    rw [hview]
    exact List.mem_singleton_self _
  · obtain ⟨hpaths, hfound⟩ := hanswered.mem
    obtain ⟨t, ht⟩ := ControlTree.exists_ofDocument (c.scope controls) path hdirectives hbase
    have hperm := ControlTree.perm_problems ht
    have hdoc := (read_eq_ok hread).2
    have hrefused (hne : t.nodeErrors ≠ []) :
        v = .refused path (t.nodeErrors.map (NodeError.report path)) := by
      rw [hfails _ (tree_of_nodeErrors ht hne)] at hview
      exact hview
    have hnoted (hproblems : d.problems ≠ []) : t.nodeErrors ≠ [] := by
      rintro hnil
      rw [hnil] at hperm
      exact hproblems hperm.nil_eq.symm
    have hreports (hproblems : d.problems ≠ []) :
        v.reports = t.nodeErrors.map (NodeError.report path) :=
      congrArg CompiledView.reports (hrefused (hnoted hproblems))
    refine ⟨controls, t, hpaths, fun entry hentry => lookup_mono hearlier (hfound entry hentry), ht,
      fun hwrong => ?_, hperm, fun e children he hunclosed =>
        unclosed_reported hdoc ht hreports he hunclosed,
      fun tag htag => stray_reported hdoc ht hreports htag⟩
    have hview := hrefused (hwrong.elim hnoted id)
    refine ⟨hview, fun r hr => ?_⟩
    rw [hview] at hr
    obtain ⟨x, -, rfl⟩ := List.mem_map.1 hr
    exact Report.about_className _ _ _ _

/-- A site with a page in which one element has no end tag, and one end tag no element. -/
def untidy : Compiler :=
  { types := Registry.empty.insert (Controls.container Controls.view)
    options := .default
    source := .ofMemory [("page.dotmaster", "<p><b></p>\n<cc:Card></i></cc:Card>")] }

/-- What is said about the page: one report for each, and one for the control it does not know. -/
def untidyReports : List Report :=
  [⟨"page.dotmaster", 1, 4, "ControlTree", "element <b> is not closed"⟩,
    ⟨"page.dotmaster", 2, 1, "ControlTree", "unknown control 'cc:Card'"⟩,
    ⟨"page.dotmaster", 2, 10, "ControlTree", "closing tag </i> has no matching start tag"⟩]

/-- The page is refused for both, and for the control it does not know. -/
theorem nodeErrors_reported_untidy :
    ∃ (v : CompiledView) (d : Document) (t : ControlTree),
      (untidy.compileAll ["page.dotmaster"] .empty).2.find? "page.dotmaster" = some v
      ∧ d.problems.length = 2 ∧ (NodeError.about .nesting t.nodeErrors).Perm d.problems
      ∧ v = .refused "page.dotmaster" (t.nodeErrors.map fun x => ⟨"page.dotmaster",
        Report.counted x.span.line, Report.counted x.span.col, "ControlTree", x.fault.message⟩)
      ∧ v.reports = untidyReports := by
  have hview : ((untidy.compileAll ["page.dotmaster"] .empty).2.find? "page.dotmaster").map
      CompiledView.reports = some untidyReports := by decide +kernel
  have hpage : (untidy.read "page.dotmaster").toOption.map (fun found =>
      (found.2.problems.length,
        (Directives.ofDocument untidy.types (.ofPath "page.dotmaster") found.2).toOption.map
          (fun directives => (untidy.types.controlMetadata?
            (rootType (.ofPath "page.dotmaster") directives)).isSome)))
      = some (2, some true) := by decide +kernel
  obtain ⟨v, hv, hreports⟩ := Option.map_eq_some_iff.1 hview
  obtain ⟨⟨file, d⟩, hread, hfound⟩ := exists_ok_of_toOption hpage
  obtain ⟨hproblems, hroot⟩ := Prod.mk.inj hfound
  obtain ⟨directives, hdirectives, hroot⟩ := exists_ok_of_toOption hroot
  obtain ⟨metadata, hbase⟩ := Option.isSome_iff_exists.1 hroot
  have hcycle : ∀ r ∈ v.reports, r.className ≠ "DependencyCycle" := by
    rw [hreports]
    decide
  obtain ⟨controls, t, -, -, -, hrefused, hperm, -, -⟩ := nodeErrors_reported untidy
    ["page.dotmaster"] hv hread hdirectives hbase hcycle
  refine ⟨v, d, t, hv, hproblems, hperm, (hrefused (.inl ?_)).1, hreports⟩
  rintro hnil
  rw [hnil] at hproblems
  cases hproblems

end Compiler

end BoundMarkup
