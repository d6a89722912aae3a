/-
  BoundMarkup.Proofs.Compile.Order
  ────────────────────────────────
  **THE ORDER OF REQUESTS DOES NOT MATTER.**

  Two ledgers that were filled in different orders agree on every path from which
  no cycle can be reached: its outcome is determined by what it requires.  On the
  other paths they agree that the view has failed, though which member of a cycle
  reports it depends on who was asked first.  Main statement:
  `compile_order_irrelevant`.
-/
import BoundMarkup.Proofs.Compile.Cycles

namespace BoundMarkup.Compiler

variable {c : Compiler}

/-! ## §1. Two ledgers. -/

/-- A justified view is not required below itself, unless there is a cycle. -/
theorem Trail.not_mem_of_requires {chain : List String} {path : String}
    (h : c.Trail (chain ++ [path])) (hc : ¬ ReachesCycle c.Requires path) :
    ∀ q, c.Requires path q → q ∉ chain ++ [path] :=
  fun _ hr hq => hc (h.cycle hr hq)

/-- **Away from cycles, two ledgers agree.** -/
theorem Settled.agree {views views' : List CompiledView} (h : c.Settled views)
    (h' : c.Settled views') :
    ∀ {path : String} {v w : CompiledView}, lookup views path = some v →
      lookup views' path = some w → ¬ ReachesCycle c.Requires path → v = w := by
  induction h with
  | nil =>
      intro path v w hv
      cases hv
  | @snoc views u _ hn hu ih =>
      intro path v w hv hw hc
      by_cases hp : u.path = path
      · subst hp
        rw [lookup_concat_self hn] at hv
        cases hv
        obtain ⟨chain, out, htrail, hout, hview⟩ := hu
        obtain ⟨earlier, hearlier, chain', out', htrail', hout', hview'⟩ := h'.justified hw
        rw [lookup_path hw] at htrail' hout' hview'
        -- What is required is older in the first ledger, so it agrees by induction.
        have hsame : out = out' := by
          refine hout.unique hout' (htrail.not_mem_of_requires hc)
            (htrail'.not_mem_of_requires hc) fun q hq a b ha hb => ?_
          exact ih ha (lookup_mono hearlier hb) fun hqc => hc (hqc.head hq)
        rw [hview, hview', hsame]
      · rw [lookup_concat_of_ne hp] at hv
        exact ih hv hw hc

theorem artifact?_eq_none_of_failed {v : CompiledView} (h : v.succeeded = false) :
    v.artifact? = none := by
  unfold CompiledView.succeeded at h
  simpa using h

/-! ## §2. Two sequences of requests. -/

/-- **ORDER IRRELEVANCE.**  A path that has been finished in two runs, each from
an empty cache, has compiled in both or in neither, and to one artifact; where no
cycle of requirements can be reached, let alone of dependencies, the views are
the same in all that they report. -/
theorem compile_order_irrelevant (c : Compiler) (first second : List String) {path : String}
    {v w : CompiledView} (hv : (c.compileAll first .empty).2.find? path = some v)
    (hw : (c.compileAll second .empty).2.find? path = some w) :
    v.succeeded = w.succeeded ∧ v.artifact? = w.artifact?
      ∧ (¬ ReachesCycle c.Requires path → v = w) := by
  have hfirst := c.compileAll_settled first
  have hsecond := c.compileAll_settled second
  by_cases hc : ReachesCycle c.Requires path
  · -- Above a cycle no view compiles, so both runs have failed.
    have hdep := hc.mono fun _ _ => Requires.dependsOn
    have hvf := succeeded_eq_false_of_reachesCycle hfirst hv hdep
    have hwf := succeeded_eq_false_of_reachesCycle hsecond hw hdep
    refine ⟨by rw [hvf, hwf], ?_, fun hn => absurd hc hn⟩
    rw [artifact?_eq_none_of_failed hvf, artifact?_eq_none_of_failed hwf]
  · have hvw := hfirst.agree hsecond hv hw hc
    exact ⟨by rw [hvw], by rw [hvw], fun _ => hvw⟩

theorem sample_not_reachesCycle : ¬ ReachesCycle sample.Requires "sub.dotmaster" := by
  have hsub : sample.requirements "sub.dotmaster" = ["main.dotmaster"] := by decide +kernel
  have hmain : sample.requirements "main.dotmaster" = [] := by decide +kernel
  refine not_reachesCycle_of_acc (Acc.intro _ fun q hq => Acc.intro _ fun r hr => ?_)
  rw [requires_iff_mem, hsub] at hq
  rw [List.mem_singleton.1 hq, requires_iff_mem, hmain] at hr
  cases hr

/-- A master page on top of another one is the same view, whichever of the two
has been asked for first, and however it is spelled. -/
theorem compile_order_irrelevant_sample :
    ∃ v, (sample.compileAll ["sub.dotmaster"] .empty).2.find? "sub.dotmaster" = some v
      ∧ (sample.compileAll ["main.dotmaster", "./sub.dotmaster"] .empty).2.find? "sub.dotmaster"
          = some v := by
  have hfirst : ((sample.compileAll ["sub.dotmaster"] .empty).2.find?
      "sub.dotmaster").isSome = true := by decide +kernel
  have hsecond : ((sample.compileAll ["main.dotmaster", "./sub.dotmaster"] .empty).2.find?
      "sub.dotmaster").isSome = true := by decide +kernel
  obtain ⟨v, hv⟩ := Option.isSome_iff_exists.1 hfirst
  obtain ⟨w, hw⟩ := Option.isSome_iff_exists.1 hsecond
  obtain ⟨_, _, hsame⟩ := compile_order_irrelevant sample ["sub.dotmaster"]
    ["main.dotmaster", "./sub.dotmaster"] hv hw
  refine ⟨v, hv, ?_⟩
  rw [hsame sample_not_reachesCycle]
  exact hw

-- On a cycle the reports do depend on the order.
example :
    ((sample.compileAll ["a.dotmaster"] .empty).2.find? "a.dotmaster").map CompiledView.reports
      ≠ ((sample.compileAll ["b.dotmaster"] .empty).2.find? "a.dotmaster").map
          CompiledView.reports := by
  decide +kernel

end BoundMarkup.Compiler
