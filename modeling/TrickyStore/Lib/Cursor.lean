import Mathlib.Data.Finset.Card
import Mathlib.Order.Defs.LinearOrder
import Mathlib.Tactic.Common

/-!
# Walking a sorted collection by a cursor

A client reads a collection page by page: each call passes the last element of the page before, and
the first empty page ends the walk.  The server answers with a page of its own elements, an initial
part of those past the cursor, into which it merges every element past the cursor of a second
collection.  The page then ends at the greatest element of the second collection, if that is the
greater one, and the walk never comes back to what the server left for the next page.
-/

namespace Lib

namespace Cursor

variable {α σ : Type*}

/-- A server answers the call with a page and goes on in a new state. -/
abbrev Server (σ α : Type*) := σ → Option α → List α × σ

/-- The client has read `out` when it meets the empty page. -/
inductive Walk (serve : Server σ α) : σ → Option α → List α → Prop
  | stop {s : σ} {cursor : Option α} (h : (serve s cursor).1 = []) : Walk serve s cursor []
  | next {s : σ} {cursor : Option α} {last : α} {rest : List α}
      (h : (serve s cursor).1.getLast? = some last)
      (hrest : Walk serve (serve s cursor).2 (some last) rest) :
    Walk serve s cursor ((serve s cursor).1 ++ rest)

theorem Walk.unique {serve : Server σ α} {s : σ} {cursor : Option α} {out out' : List α}
    (h : Walk serve s cursor out) (h' : Walk serve s cursor out') : out = out' := by
  induction h generalizing out' with
  | stop hs =>
    cases h' with
    | stop => rfl
    | next hl =>
      rw [hs] at hl
      cases hl
  | next hl hrest ih =>
    cases h' with
    | stop hs =>
      rw [hs] at hl
      cases hl
    | next hl' hrest' =>
      obtain rfl := Option.some.inj (hl.symm.trans hl')
      rw [ih hrest']

variable [LinearOrder α]

/-- The elements past the cursor; `none` is the start. -/
def Past (cursor : Option α) (a : α) : Prop := ∀ b, cursor = some b → b < a

instance (cursor : Option α) (a : α) : Decidable (Past cursor a) :=
  match cursor with
  | none => .isTrue fun _ h => by cases h
  | some b => decidable_of_iff (b < a) ⟨fun h _ hb => Option.some.inj hb ▸ h, fun h => h b rfl⟩

theorem past_none (a : α) : Past none a := fun _ h => by cases h

theorem past_some {a b : α} : Past (some b) a ↔ b < a :=
  ⟨fun h => h b rfl, fun h _ hb => Option.some.inj hb ▸ h⟩

theorem Past.mono {cursor : Option α} {a b : α} (h : Past cursor a) (hab : a ≤ b) :
    Past cursor b := fun c hc => (h c hc).trans_le hab

/-- An initial part, in ascending order, of the elements of `R` past the cursor, which is empty only
when there are none. -/
structure IsPage (R : Finset α) (cursor : Option α) (page : List α) : Prop where
  sorted : page.Pairwise (· < ·)
  mem : ∀ a ∈ page, a ∈ R ∧ Past cursor a
  initial : ∀ a ∈ page, ∀ b ∈ R, Past cursor b → b < a → b ∈ page
  nonempty : ∀ b ∈ R, Past cursor b → page ≠ []

/-- In the states of `I` the server merges the elements of `F` into the pages `real` of `R`. -/
structure Merges (serve : Server σ α) (R F : Finset α) (I : σ → Prop)
    (real : σ → Option α → List α) : Prop where
  keeps : ∀ s cursor, I s → I (serve s cursor).2
  page : ∀ s cursor, I s → IsPage R cursor (real s cursor)
  sorted : ∀ s cursor, I s → (serve s cursor).1.Pairwise (· < ·)
  mem : ∀ s cursor, I s → ∀ a,
    a ∈ (serve s cursor).1 ↔ a ∈ real s cursor ∨ a ∈ F ∧ Past cursor a

/-- A walk from the start reads every element of both collections once, in ascending order. -/
def Complete (serve : Server σ α) (R F : Finset α) (s : σ) : Prop :=
  ∃ out, Walk serve s none out ∧ out.Pairwise (· < ·) ∧ ∀ a, a ∈ out ↔ a ∈ R ∨ a ∈ F

/-- The last element of an ascending list is its greatest. -/
theorem le_getLast {l : List α} (h : l.Pairwise (· < ·)) {last a : α} (hlast : l.getLast? = some last)
    (ha : a ∈ l) : a ≤ last := by
  obtain ⟨l', rfl⟩ := List.getLast?_eq_some_iff.1 hlast
  rcases List.mem_append.1 ha with ha | ha
  · exact ((List.pairwise_append.1 h).2.2 a ha last (List.mem_singleton_self last)).le
  · exact (List.mem_singleton.1 ha).le

/-- Pages of a fixed size over an ascending list. -/
theorem isPage_take {as : List α} (h : as.Pairwise (· < ·)) (cursor : Option α) (n : ℕ) :
    IsPage as.toFinset cursor ((as.filter fun a => Past cursor a).take (n + 1)) := by
  have hsorted := h.filter fun a => Past cursor a
  have hmem {a : α} (ha : a ∈ as.filter fun a => Past cursor a) : a ∈ as ∧ Past cursor a := by
    simpa using ha
  constructor
  · exact hsorted.sublist (List.take_sublist _ _)
  · intro a ha
    obtain ⟨ha, hpast⟩ := hmem (List.mem_of_mem_take ha)
    exact ⟨List.mem_toFinset.2 ha, hpast⟩
  · intro a ha b hb hpast hlt
    have hb : b ∈ as.filter fun a => Past cursor a := by simpa [hpast] using hb
    rw [← List.take_append_drop (n + 1) (as.filter fun a => Past cursor a)] at hb hsorted
    refine (List.mem_append.1 hb).resolve_right fun hdrop => ?_
    exact absurd ((List.pairwise_append.1 hsorted).2.2 a ha b hdrop) hlt.not_gt
  · intro b hb hpast hempty
    have hb : b ∈ as.filter fun a => Past cursor a := by simpa [hpast] using hb
    rw [(List.take_eq_nil_iff.1 hempty).resolve_left (by omega)] at hb
    cases hb

namespace Merges

variable {serve : Server σ α} {R F : Finset α} {I : σ → Prop} {real : σ → Option α → List α}
  {s : σ} {cursor : Option α} {out : List α}

theorem past (h : Merges serve R F I real) (hs : I s) {a : α} (ha : a ∈ (serve s cursor).1) :
    Past cursor a := by
  rcases (h.mem s cursor hs a).1 ha with ha | ha
  · exact ((h.page s cursor hs).mem a ha).2
  · exact ha.2

/-- A walk stays past its cursor. -/
theorem walk_past (h : Merges serve R F I real) (hs : I s) (hw : Walk serve s cursor out) :
    ∀ a ∈ out, Past cursor a := by
  induction hw with
  | stop => exact fun a ha => absurd ha List.not_mem_nil
  | next hlast hrest ih =>
    intro a ha
    rcases List.mem_append.1 ha with ha | ha
    · exact h.past hs ha
    · have hle := past_some.1 (ih (h.keeps _ _ hs) a ha)
      exact (h.past hs (List.mem_of_getLast? hlast)).mono hle.le

/-- A walk reads everything past its cursor if its first page leaves out no element of `R` below one of
`F`: from then on, nothing of `F` is left. -/
theorem exists_walk (h : Merges serve R F I real) (hs : I s)
    (hleft : ∀ r ∈ R, Past cursor r → (∃ f ∈ F, r < f) → r ∈ real s cursor ∨ r ∈ F) :
    ∃ out, Walk serve s cursor out ∧ out.Pairwise (· < ·) ∧
      ∀ a, a ∈ out ↔ (a ∈ R ∨ a ∈ F) ∧ Past cursor a := by
  -- on the number of elements that are past the cursor
  induction hn : ((R ∪ F).filter (Past cursor)).card using Nat.strong_induction_on
    generalizing s cursor with
  | _ n ih =>
  have hpage := h.page s cursor hs
  cases hlast : (serve s cursor).1.getLast? with
  | none =>
    have hempty : (serve s cursor).1 = [] := List.getLast?_eq_none_iff.1 hlast
    refine ⟨[], .stop hempty, .nil, fun a => ⟨fun ha => absurd ha List.not_mem_nil, ?_⟩⟩
    have hnone (b : α) (hb : b ∈ real s cursor ∨ b ∈ F ∧ Past cursor b) : False := by
      have hb := (h.mem s cursor hs b).2 hb
      rw [hempty] at hb
      cases hb
    rintro ⟨ha | ha, hpast⟩
    · obtain ⟨b, hb⟩ := List.exists_mem_of_ne_nil _ (hpage.nonempty a ha hpast)
      exact (hnone b (.inl hb)).elim
    · exact (hnone a (.inr ⟨ha, hpast⟩)).elim
  | some last =>
    have hlastMem := List.mem_of_getLast? hlast
    have hlastPast := h.past hs hlastMem
    have hlastIn := (h.mem s cursor hs last).1 hlastMem
    have hle {a : α} (ha : a ∈ (serve s cursor).1) : a ≤ last :=
      le_getLast (h.sorted s cursor hs) hlast ha
    have hF {f : α} (hf : f ∈ F) (hpast : Past cursor f) : f ≤ last :=
      hle ((h.mem s cursor hs f).2 (.inr ⟨hf, hpast⟩))
    have hcard : ((R ∪ F).filter (Past (some last))).card < n := by
      rw [← hn]
      refine Finset.card_lt_card ⟨fun a ha => ?_, fun hsub => ?_⟩
      · obtain ⟨ha, hpast⟩ := Finset.mem_filter.1 ha
        exact Finset.mem_filter.2 ⟨ha, hlastPast.mono (past_some.1 hpast).le⟩
      · have hmem : last ∈ (R ∪ F).filter (Past cursor) := by
          refine Finset.mem_filter.2 ⟨Finset.mem_union.2 ?_, hlastPast⟩
          exact hlastIn.imp (fun hr => (hpage.mem last hr).1) And.left
        exact lt_irrefl _ (past_some.1 (Finset.mem_filter.1 (hsub hmem)).2)
    obtain ⟨rest, hwalk, hsorted, hmem⟩ := ih _ hcard (h.keeps s cursor hs)
      (fun r _ hr ⟨f, hf, hrf⟩ => by
        have hr := past_some.1 hr
        exact absurd (hF hf (hlastPast.mono (hr.trans hrf).le)) (hr.trans hrf).not_ge) rfl
    refine ⟨_, .next hlast hwalk, List.pairwise_append.2 ⟨h.sorted s cursor hs, hsorted,
      fun a ha b hb => (hle ha).trans_lt (past_some.1 ((hmem b).1 hb).2)⟩, fun a => ?_⟩
    rw [List.mem_append, hmem, h.mem s cursor hs]
    constructor
    · rintro ((ha | ⟨ha, hpast⟩) | ⟨ha, hpast⟩)
      · exact ⟨.inl (hpage.mem a ha).1, (hpage.mem a ha).2⟩
      · exact ⟨.inr ha, hpast⟩
      · exact ⟨ha, hlastPast.mono (past_some.1 hpast).le⟩
    · rintro ⟨ha | ha, hpast⟩
      · rcases lt_trichotomy a last with hlt | rfl | hgt
        · rcases hlastIn with hreal | ⟨hf, -⟩
          · exact .inl (.inl (hpage.initial last hreal a ha hpast hlt))
          · rcases hleft a ha hpast ⟨last, hf, hlt⟩ with hr | hr
            · exact .inl (.inl hr)
            · exact .inl (.inr ⟨hr, hpast⟩)
        · exact .inl hlastIn
        · exact .inr ⟨.inl ha, past_some.2 hgt⟩
      · exact .inl (.inr ⟨ha, hpast⟩)

/-- The walk reads everything exactly if the first page of `R` has every element of `R` that some
element of `F` exceeds, save those that `F` itself brings in. -/
theorem complete_iff (h : Merges serve R F I real) (hs : I s) :
    Complete serve R F s ↔ ∀ r ∈ R, (∃ f ∈ F, r < f) → r ∈ real s none ∨ r ∈ F := by
  constructor
  · rintro ⟨out, hwalk, -, hmem⟩ r hr ⟨f, hf, hrf⟩
    have hrOut := (hmem r).2 (.inl hr)
    cases hwalk with
    | stop => cases hrOut
    | next hlast hrest =>
      rcases List.mem_append.1 hrOut with hpage | hlater
      · exact ((h.mem s none hs r).1 hpage).imp_right And.left
      · have hf := le_getLast (h.sorted s none hs) hlast
          ((h.mem s none hs f).2 (.inr ⟨hf, past_none f⟩))
        have hlater := past_some.1 (h.walk_past (h.keeps s none hs) hrest r hlater)
        exact absurd (hf.trans_lt hlater) hrf.le.not_gt
  · intro hleft
    obtain ⟨out, hwalk, hsorted, hmem⟩ := h.exists_walk hs fun r hr _ => hleft r hr
    exact ⟨out, hwalk, hsorted, fun a => (hmem a).trans (and_iff_left (past_none a))⟩

end Merges

end Cursor

end Lib
