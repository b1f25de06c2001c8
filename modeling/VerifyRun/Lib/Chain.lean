-- Chains of links, each of which is bound to the head of the links before it.
-- Where a head is of one link and of one head before it, the last head of a
-- chain is of one chain.
import VerifyRun.Lib.Outcomes

namespace chain

variable {Link Head Content ε σ : Type}

/-- The links are a chain with this head. `bound before link after` says that
the link, put on the head before it, makes the head after it. -/
inductive Chained (bound : Option Head → Link → Head → Prop) : List Link → Option Head → Prop where
  | nil : Chained bound [] none
  | snoc {links : List Link} {before : Option Head} {link : Link} {after : Head}
      (h : Chained bound links before) (hb : bound before link after) :
      Chained bound (links ++ [link]) (some after)

variable {bound : Option Head → Link → Head → Prop} {links links' : List Link} {head : Option Head}

/-- Chains with one head have the same content, link by link. -/
theorem Chained.content_eq {content : Link → Content} (h : Chained bound links head)
    (h' : Chained bound links' head)
    (hback : ∀ link ∈ links, ∀ link' ∈ links', ∀ before before' after, bound before link after →
      bound before' link' after → before = before' ∧ content link = content link') :
    links.map content = links'.map content := by
  induction h generalizing links' with
  | nil =>
    cases h' with
    | nil => rfl
  | @snoc links before link after h hb ih =>
    cases h' with
    | @snoc links' before' link' _ h' hb' =>
      obtain ⟨rfl, hcontent⟩ :=
        hback link (by simp) link' (by simp) before before' after hb hb'
      have hrest := ih h' fun l hl l' hl' => hback l (by simp [hl]) l' (by simp [hl'])
      rw [List.map_append, List.map_append, hrest, List.map_singleton, List.map_singleton, hcontent]

/-- A loop that puts one link after the other on the head so far makes a chain. -/
theorem chained_of_foldlM {step : σ → Link → Except ε σ} {headOf : σ → Option Head}
    (hstep : ∀ s link s', step s link = .ok s' →
      ∃ after, headOf s' = some after ∧ bound (headOf s) link after) {s s' : σ}
    (hs : headOf s = none) (h : links.foldlM step s = .ok s') : Chained bound links (headOf s') := by
  induction links using List.reverseRecOn generalizing s' with
  | nil =>
    rw [List.foldlM_nil, outcomes.pure_eq_ok] at h
    rw [← h, hs]
    exact .nil
  | append_singleton links link ih =>
    rw [List.foldlM_append, outcomes.bind_eq_ok] at h
    obtain ⟨t, ht, h⟩ := h
    rw [List.foldlM_cons, outcomes.bind_eq_ok] at h
    obtain ⟨t', hlink, h⟩ := h
    rw [List.foldlM_nil, outcomes.pure_eq_ok] at h
    subst h
    obtain ⟨after, hafter, hb⟩ := hstep t link t' hlink
    rw [hafter]
    exact .snoc (ih ht) hb

end chain
