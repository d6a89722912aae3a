/-
  BoundMarkup.Proofs.Compile.Cycles
  ─────────────────────────────────
  **CYCLES ARE REFUSED, AND ONLY CYCLES.**

  A view that compiled stands on views that compiled before it, so from there no
  way down is endless.  A reported cycle is the end of a trail that was walked.
  Main statement: `cycle_rejection`.
-/
import BoundMarkup.Proofs.Compile.Ledger

namespace BoundMarkup.Compiler

variable {c : Compiler}

/-! ## §1. Below a success. -/

/-- **From a view that compiled, every way along dependencies ends.** -/
theorem acc_of_succeeded {views : List CompiledView} (h : c.Settled views) :
    ∀ {path : String} {v : CompiledView}, lookup views path = some v → v.succeeded = true →
      Acc (fun q p => c.DependsOn p q) path := by
  induction h with
  | nil =>
      intro path v hv
      cases hv
  | @snoc views w _ hn hw ih =>
      intro path v hv hs
      by_cases hp : w.path = path
      · subst hp
        rw [lookup_concat_self hn] at hv
        cases hv
        obtain ⟨chain, out, _, hout, hview⟩ := hw
        rw [hview] at hs
        obtain ⟨a, rfl⟩ := exists_of_viewOf_succeeded hs
        -- Each dependency has been finished before, and with success.
        refine Acc.intro _ fun q hq => ?_
        obtain ⟨u, hu, hus⟩ := hout.dependencies_succeeded hq
        exact ih hu hus
      · rw [lookup_concat_of_ne hp] at hv
        exact ih hv hs

theorem succeeded_eq_false_of_reachesCycle {views : List CompiledView} (h : c.Settled views)
    {path : String} {v : CompiledView} (hv : lookup views path = some v)
    (hc : ReachesCycle c.DependsOn path) : v.succeeded = false := by
  cases hs : v.succeeded with
  | false => rfl
  | true => exact absurd hc (not_reachesCycle_of_acc (acc_of_succeeded h hv hs))

/-! ## §2. Reported walks. -/

theorem exists_dropWhile_eq_cons {q : String} :
    ∀ {chain : List String}, q ∈ chain → ∃ rest, chain.dropWhile (fun p => p != q) = q :: rest
  | p :: chain, hq => by
      by_cases hp : p = q
      · subst hp
        exact ⟨chain, List.dropWhile_cons_of_neg (by simp)⟩
      · have hmem := (List.mem_cons.1 hq).resolve_left (Ne.symm hp)
        rw [List.dropWhile_cons_of_pos (by simpa using hp)]
        exact exists_dropWhile_eq_cons hmem

/-- A requirement back into a trail closes a walk. -/
theorem Trail.closedWalk {chain walk : List String} {path q : String}
    (h : c.Trail (chain ++ [path])) (hq : c.Requires path q)
    (hc : cycle? (chain ++ [path]) q = some walk) :
    ∃ rest, walk = q :: rest ++ [q] ∧ walk.IsChain c.Requires := by
  have hmem : q ∈ chain ++ [path] := by
    by_contra hn
    rw [cycle?_of_not_mem hn] at hc
    cases hc
  rw [cycle?_of_mem hmem] at hc
  cases hc
  obtain ⟨rest, hdrop⟩ := exists_dropWhile_eq_cons hmem
  refine ⟨rest, by rw [hdrop], ?_⟩
  have hsuffix := List.dropWhile_suffix (l := chain ++ [path]) (fun p => p != q)
  rw [List.isChain_append]
  refine ⟨h.linked.suffix hsuffix, List.isChain_singleton q, fun x hx y hy => ?_⟩
  -- What is left of the trail still ends in the path.
  obtain ⟨before, hsplit⟩ := hsuffix
  have hlast := congrArg List.getLast? hsplit
  rw [List.getLast?_append_of_ne_nil before (by rw [hdrop]; exact List.cons_ne_nil q rest),
      List.getLast?_concat] at hlast
  rw [hlast] at hx
  cases hx
  cases hy
  exact hq

/-- **A reported cycle is a closed walk** along dependencies. -/
theorem closedWalk_of_report {views : List CompiledView} (h : c.Settled views) {path : String}
    {v : CompiledView} (hv : lookup views path = some v) {r : Report} (hr : r ∈ v.reports)
    (hclass : r.className = "DependencyCycle") :
    ∃ first rest, (first :: rest ++ [first]).IsChain c.DependsOn
      ∧ r.message = "dependency cycle detected: " ++ Text.join " -> " (first :: rest ++ [first]) := by
  obtain ⟨_, _, chain, out, htrail, hout, hview⟩ := h.justified hv
  rw [hview] at hr
  cases out with
  | ok a => cases hr
  | error failure =>
      rcases hout.error_cases with hown | ⟨q, span, walk, hq, hwalk, rfl⟩ | hmaster
      · obtain ⟨rs, hrs, _, hall⟩ := hown
        have hr' : r ∈ (failure.view v.path).reports := hr
        rw [hrs] at hr'
        exact absurd hclass (hall r hr').2
      · have hr' : r = (ViewError.cycle walk span).report v.path := List.mem_singleton.1 hr
        obtain ⟨rest, rfl, hlinked⟩ := htrail.closedWalk hq hwalk
        refine ⟨q, rest, hlinked.imp fun _ _ => Requires.dependsOn, ?_⟩
        rw [hr']
        exact Report.about_message _ _ _ _
      · obtain ⟨_, reference, master, _, _, _, _, rfl⟩ := hmaster
        have hr' : r = (ViewError.masterFailed reference.path reference.span).report v.path :=
          List.mem_singleton.1 hr
        rw [hr', ViewError.report, Report.about_className] at hclass
        exact absurd hclass (by show "DependencyFailed" ≠ _; decide)

/-- **CYCLE REJECTION.**  After any requests, no view compiled from which a cycle
of dependencies can be reached, and every cycle that is reported leads along
dependencies from a path back to itself. -/
theorem cycle_rejection (c : Compiler) (paths : List String) :
    let s := (c.compileAll paths .empty).2
    (∀ path v, s.find? path = some v → ReachesCycle c.DependsOn path → v.succeeded = false)
      ∧ ∀ path v, s.find? path = some v → ∀ r ∈ v.reports, r.className = "DependencyCycle" →
          ∃ first rest, (first :: rest ++ [first]).IsChain c.DependsOn
            ∧ r.message
              = "dependency cycle detected: " ++ Text.join " -> " (first :: rest ++ [first]) := by
  intro s
  have hsettled := c.compileAll_settled paths
  refine ⟨fun path v hv hc => ?_, fun path v hv r hr hclass => ?_⟩
  · exact succeeded_eq_false_of_reachesCycle hsettled hv hc
  · exact closedWalk_of_report hsettled hv hr hclass

theorem sample_reachesCycle : ReachesCycle sample.DependsOn "b.dotmaster" := by
  have hba : sample.Requires "b.dotmaster" "a.dotmaster" := by decide +kernel
  have hab : sample.Requires "a.dotmaster" "b.dotmaster" := by decide +kernel
  exact ⟨"b.dotmaster", .refl, .tail (.single hba.dependsOn) hab.dependsOn⟩

/-- Asked for the first of two master pages that name each other, the second is
the one that reports the cycle. -/
theorem cycle_rejection_sample :
    ∃ v r, (sample.compileAll ["a.dotmaster"] .empty).2.find? "b.dotmaster" = some v
      ∧ v.succeeded = false ∧ r ∈ v.reports
      ∧ ∃ first rest, (first :: rest ++ [first]).IsChain sample.DependsOn
        ∧ r.message
          = "dependency cycle detected: " ++ Text.join " -> " (first :: rest ++ [first]) := by
  have hreports : ((sample.compileAll ["a.dotmaster"] .empty).2.find? "b.dotmaster").map
      CompiledView.reports = some [⟨"b.dotmaster", 1, 1, "DependencyCycle",
        "dependency cycle detected: a.dotmaster -> b.dotmaster -> a.dotmaster"⟩] := by
    decide +kernel
  obtain ⟨v, hv, hr⟩ := Option.map_eq_some_iff.1 hreports
  obtain ⟨hrefused, hwalks⟩ := cycle_rejection sample ["a.dotmaster"]
  have hmem := List.mem_singleton_self (a := (⟨"b.dotmaster", 1, 1, "DependencyCycle",
    "dependency cycle detected: a.dotmaster -> b.dotmaster -> a.dotmaster"⟩ : Report))
  rw [← hr] at hmem
  exact ⟨v, _, hv, hrefused _ v hv sample_reachesCycle, hmem, hwalks _ v hv _ hmem rfl⟩

end BoundMarkup.Compiler
