import Mathlib.Data.List.Induction
import Mathlib.Tactic.Common

/-!
# Markup as a stream of events

A document is a forest of elements and texts; a pull parser reports it as a stream of start tags, end tags
and texts.  A stream that breaks off is that of a document in which the elements on one path are still open.
Every stream whose end tags match the start tags is of that form.
-/

namespace Lib

namespace Markup

variable {A T : Type*}

inductive Event (A T : Type*) where
  | startTag (name : String) (attr : A)
  | endTag (name : String)
  | text (t : T)

/-- Elements and texts that stand next to each other. -/
inductive Forest (A T : Type*) where
  | nil
  | text (t : T) (rest : Forest A T)
  | element (name : String) (attr : A) (children rest : Forest A T)

namespace Forest

def events : Forest A T → List (Event A T)
  | nil => []
  | text t rest => .text t :: rest.events
  | element name attr children rest =>
    .startTag name attr :: (children.events ++ .endTag name :: rest.events)

def append : Forest A T → Forest A T → Forest A T
  | nil, g => g
  | text t rest, g => text t (rest.append g)
  | element name attr children rest, g => element name attr children (rest.append g)

theorem events_append (f g : Forest A T) : (f.append g).events = f.events ++ g.events := by
  induction f with
  | nil => rfl
  | text t rest ih => rw [append, events, events, ih, List.cons_append]
  | element name attr children rest _ ih => simp [append, events, ih]

end Forest

/-- A document as far as it was read: complete elements, and perhaps an element that is still open. -/
inductive Partial (A T : Type*) where
  | complete (f : Forest A T)
  | inside (before : Forest A T) (name : String) (attr : A) (children : Partial A T)

namespace Partial

def events : Partial A T → List (Event A T)
  | complete f => f.events
  | inside before name attr children =>
    before.events ++ .startTag name attr :: children.events

/-- The open elements, the innermost first. -/
def openNames : Partial A T → List String
  | complete _ => []
  | inside _ name _ children => children.openNames ++ [name]

def addText (t : T) : Partial A T → Partial A T
  | complete f => complete (f.append (.text t .nil))
  | inside before name attr children => inside before name attr (children.addText t)

def openElement (n : String) (a : A) : Partial A T → Partial A T
  | complete f => inside f n a (complete .nil)
  | inside before name attr children => inside before name attr (children.openElement n a)

/-- Closes the innermost element. -/
def closeElement : Partial A T → Partial A T
  | complete f => complete f
  | inside before name attr (complete f) =>
    complete (before.append (.element name attr f .nil))
  | inside before name attr (inside b n a c) => inside before name attr (inside b n a c).closeElement

variable (p : Partial A T)

theorem addText_spec (t : T) :
    (p.addText t).events = p.events ++ [.text t] ∧ (p.addText t).openNames = p.openNames := by
  induction p with
  | complete f => exact ⟨by simp [addText, events, Forest.events_append, Forest.events], rfl⟩
  | inside before name attr children ih =>
    exact ⟨by simp [addText, events, ih.1], by simp [addText, openNames, ih.2]⟩

theorem openElement_spec (n : String) (a : A) :
    (p.openElement n a).events = p.events ++ [.startTag n a] ∧
      (p.openElement n a).openNames = n :: p.openNames := by
  induction p with
  | complete f => exact ⟨by simp [openElement, events, Forest.events], rfl⟩
  | inside before name attr children ih =>
    exact ⟨by simp [openElement, events, ih.1], by simp [openElement, openNames, ih.2]⟩

theorem closeElement_spec {n : String} {names : List String} (h : p.openNames = n :: names) :
    p.closeElement.events = p.events ++ [.endTag n] ∧ p.closeElement.openNames = names := by
  induction p generalizing names with
  | complete f => cases h
  | inside before name attr children ih =>
    cases children with
    | complete f =>
      rw [openNames, openNames, List.nil_append, List.cons.injEq] at h
      obtain ⟨rfl, rfl⟩ := h
      exact ⟨by simp [closeElement, events, Forest.events_append, Forest.events], rfl⟩
    | inside b m a c =>
      obtain ⟨inner, hinner⟩ : ∃ inner, (inside b m a c).openNames = n :: inner := by
        have hne : (inside b m a c).openNames ≠ [] := by simp [openNames]
        obtain ⟨k, inner, hk⟩ := List.exists_cons_of_ne_nil hne
        rw [openNames, hk, List.cons_append, List.cons.injEq] at h
        exact ⟨inner, by rw [hk, h.1]⟩
      have hclose := ih hinner
      rw [openNames, hinner, List.cons_append, List.cons.injEq] at h
      constructor
      · change _ = (before.events ++ .startTag name attr :: (inside b m a c).events) ++ [.endTag n]
        rw [closeElement, events, hclose.1, List.append_assoc, List.cons_append]
      · rw [closeElement, openNames, hclose.2]
        exact h.2

end Partial

/-- The elements that are open behind a stream, the innermost first; none when an end tag does not match. -/
def openAfter : List String → List (Event A T) → Option (List String)
  | stack, [] => some stack
  | stack, .startTag name _ :: es => openAfter (name :: stack) es
  | stack, .text _ :: es => openAfter stack es
  | [], .endTag _ :: _ => none
  | top :: stack, .endTag name :: es => if name = top then openAfter stack es else none

theorem openAfter_append (stack : List String) (es es' : List (Event A T)) :
    openAfter stack (es ++ es') = (openAfter stack es).bind fun stack' => openAfter stack' es' := by
  induction es generalizing stack with
  | nil => rfl
  | cons e es ih =>
    cases e with
    | startTag name attr => exact ih _
    | text t => exact ih _
    | endTag name =>
      cases stack with
      | nil => rfl
      | cons top stack =>
        rw [List.cons_append, openAfter, openAfter]
        split_ifs
        · exact ih stack
        · rfl

/-- A stream whose end tags match is that of a document as far as it was read. -/
theorem exists_unfinished (es : List (Event A T)) :
    ∀ stack, openAfter [] es = some stack → ∃ p : Partial A T, p.events = es ∧ p.openNames = stack := by
  induction es using List.reverseRecOn with
  | nil =>
    intro stack h
    rw [openAfter, Option.some.injEq] at h
    subst h
    exact ⟨.complete .nil, rfl, rfl⟩
  | append_singleton es e ih =>
    intro stack h
    rw [openAfter_append] at h
    obtain ⟨before, hbefore, hstep⟩ := Option.bind_eq_some_iff.1 h
    obtain ⟨p, rfl, rfl⟩ := ih before hbefore
    cases e with
    | startTag name attr =>
      rw [openAfter, openAfter, Option.some.injEq] at hstep
      subst hstep
      exact ⟨p.openElement name attr, p.openElement_spec name attr⟩
    | text t =>
      rw [openAfter, openAfter, Option.some.injEq] at hstep
      subst hstep
      exact ⟨p.addText t, p.addText_spec t⟩
    | endTag name =>
      cases hopen : p.openNames with
      | nil =>
        rw [hopen] at hstep
        cases hstep
      | cons top rest =>
        rw [hopen, openAfter] at hstep
        split_ifs at hstep with htop
        rw [openAfter, Option.some.injEq] at hstep
        subst hstep
        subst htop
        exact ⟨p.closeElement, p.closeElement_spec hopen⟩

end Markup

end Lib
