import SipXRouter.Xml
import Mathlib.Algebra.Order.BigOperators.Group.List
import Mathlib.Algebra.Order.Ring.Int
import Mathlib.Tactic.Linarith

/-!
# How many marks a document can give

The marks are the characters that are written as references, and the semicolon.  A
parser gets a mark in one of two ways: from a mark that stands for itself, or from a
reference, which costs a semicolon.  So the texts of a document have no more marks than
the document has semicolons, quotes and brackets outside of tags.
-/

namespace SipXRouter.Xml

open List

/-- The sum of a weight over a text. -/
def weigh (w : Byte → Int) (t : Text) : Int := (t.map w).sum

@[simp] theorem weigh_nil (w : Byte → Int) : weigh w [] = 0 := rfl

@[simp] theorem weigh_cons (w : Byte → Int) (c : Byte) (t : Text) :
    weigh w (c :: t) = w c + weigh w t := sum_cons

@[simp] theorem weigh_append (w : Byte → Int) (a b : Text) :
    weigh w (a ++ b) = weigh w a + weigh w b := by
  rw [weigh, map_append, sum_append]
  rfl

variable {t : Text}

theorem weigh_eq_zero {w : Byte → Int} (h : ∀ c ∈ t, w c = 0) : weigh w t = 0 := by
  induction t with
  | nil => rfl
  | cons c t ih =>
    rw [weigh_cons, h c mem_cons_self, ih fun d hd => h d (mem_cons_of_mem _ hd)]
    rfl

theorem weigh_nonneg {w : Byte → Int} (hw : ∀ c, 0 ≤ w c) (t : Text) : 0 ≤ weigh w t := by
  induction t with
  | nil => exact le_rfl
  | cons c t ih =>
    rw [weigh_cons]
    exact add_nonneg (hw c) ih

/-- A mark in a node. -/
def mark (c : Byte) : Int := if oneOf "<>&\"';\r" c then 1 else 0

/-- A mark in a document.  The start of a tag makes good for its end. -/
def cost (c : Byte) : Int := if c = byte '<' then -1 else if oneOf ">\"';" c then 1 else 0

mutual

/-- The weight of the marks in a node. -/
def Node.marks : Node → Int
  | .text t => weigh mark t
  | .element name children => weigh mark name + marksList children

def Node.marksList : List Node → Int
  | [] => 0
  | n :: nodes => n.marks + marksList nodes

end

theorem marksList_eq (nodes : List Node) : Node.marksList nodes = (nodes.map Node.marks).sum := by
  induction nodes with
  | nil => rfl
  | cons n nodes ih => rw [Node.marksList, ih, map_cons, sum_cons]

theorem marksList_reverse (nodes : List Node) :
    Node.marksList nodes.reverse = Node.marksList nodes := by
  rw [marksList_eq, marksList_eq, map_reverse, sum_reverse]

theorem mark_nonneg (c : Byte) : 0 ≤ mark c := by
  rw [mark]
  split <;> decide

mutual

theorem Node.marks_nonneg : ∀ n : Node, 0 ≤ n.marks
  | .text t => weigh_nonneg mark_nonneg t
  | .element name children =>
    add_nonneg (weigh_nonneg mark_nonneg name) (Node.marksList_nonneg children)

theorem Node.marksList_nonneg : ∀ nodes : List Node, 0 ≤ Node.marksList nodes
  | [] => le_rfl
  | n :: nodes => add_nonneg (Node.marks_nonneg n) (Node.marksList_nonneg nodes)

end

variable {nodes : List Node}

theorem marks_le_of_mem {n : Node} (h : n ∈ nodes) : n.marks ≤ Node.marksList nodes := by
  rw [marksList_eq]
  refine single_le_sum (fun x hx => ?_) _ (mem_map_of_mem h)
  obtain ⟨n, -, rfl⟩ := mem_map.mp hx
  exact n.marks_nonneg

theorem marksList_le_of_sublist {nodes' : List Node} (h : nodes.Sublist nodes') :
    Node.marksList nodes ≤ Node.marksList nodes' := by
  induction h with
  | slnil => exact le_rfl
  | cons n _ ih =>
    rw [Node.marksList]
    exact ih.trans (le_add_of_nonneg_left n.marks_nonneg)
  | cons_cons n _ ih =>
    rw [Node.marksList, Node.marksList]
    exact add_le_add_right ih _

theorem marks_add_le_of_find {p q : Node → Bool} (hpq : ∀ n, p n = true → q n = false) {a b : Node}
    (ha : nodes.find? p = some a) (hb : nodes.find? q = some b) :
    a.marks + b.marks ≤ Node.marksList nodes := by
  induction nodes with
  | nil => exact absurd ha (by simp)
  | cons n nodes ih =>
    rw [Node.marksList]
    rw [find?_cons] at ha hb
    split at ha
    · next hp =>
        obtain rfl := Option.some.inj ha
        rw [hpq _ hp] at hb
        exact add_le_add_right (marks_le_of_mem (mem_of_find?_eq_some hb)) _
    · split at hb
      · obtain rfl := Option.some.inj hb
        rw [add_comm]
        exact add_le_add_right (marks_le_of_mem (mem_of_find?_eq_some ha)) _
      · exact (ih ha hb).trans (le_add_of_nonneg_left n.marks_nonneg)

theorem marksList_addText (t : Text) (children : List Node) :
    Node.marksList (addText t children) = Node.marksList children + weigh mark t := by
  rcases children with _ | ⟨_ | _, children⟩
  · by_cases ht : t = []
    · simp [addText, ht]
    · simp [addText, ht, Node.marksList, Node.marks]
  · simp only [addText, Node.marksList, Node.marks, weigh_append]
    ring
  · by_cases ht : t = []
    · simp [addText, ht]
    · simp only [addText, ht, if_false, Node.marksList, Node.marks]
      ring

/-- What is owed in the middle of a tag or a reference. -/
def Mode.marks : Mode → Int
  | .content _ => 0
  | .tag _ => -1
  | .reference read => -(read.count (byte '<') : Int)

/-- The marks read so far. -/
def State.marks (s : State) : Int :=
  s.mode.marks + Node.marksList s.children +
    (s.parents.map fun p => weigh mark p.1 + Node.marksList p.2).sum

theorem weigh_mark_of_isName {name : Text} (h : isName name = true) : weigh mark name = 0 :=
  weigh_eq_zero fun c hc => by
    have hmark : oneOf "<>&\"';\r" c = false :=
      oneOf_of_class (isNameByte_of_isName h c hc) (by decide)
    rw [mark, hmark]
    rfl

variable {s s' : State}

theorem marks_endTag {read : Text} (hmode : s.mode = .tag read)
    (h : endTag read s = some s') : s'.marks = s.marks + 1 := by
  obtain ⟨mode, children, parents⟩ := s
  obtain rfl := hmode
  rw [endTag.eq_def] at h
  split at h
  · next name =>
      cases parents with
      | nil => exact absurd h (by simp)
      | cons p parents =>
        obtain ⟨opened, before⟩ := p
        dsimp only at h
        split at h
        · next heq =>
            obtain rfl := heq
            obtain rfl := Option.some.inj h
            simp only [State.marks, Mode.marks, Node.marksList, Node.marks, map_cons,
              sum_cons, marksList_reverse]
            ring
        · exact absurd h (by simp)
  · split at h
    · next hname =>
        obtain rfl := Option.some.inj h
        simp only [State.marks, Mode.marks, Node.marksList, map_cons, sum_cons,
          weigh_mark_of_isName hname]
        ring
    · exact absurd h (by simp)

variable {c : Byte}

theorem not_mem_of_decodeReference {r : Text} (h : decodeReference r = some c) : byte '<' ∉ r := by
  have hdigits : ∀ {p : Byte → Bool} {digits : Text}, p (byte '<') = false → digits.all p = true →
      byte '<' ∉ digits := fun hp hall hmem =>
    absurd ((all_eq_true.mp hall _ hmem).symm.trans hp) Bool.noConfusion
  rw [decodeReference] at h
  split at h
  · next heq => rw [heq]; decide
  split at h
  · next heq => rw [heq]; decide
  split at h
  · next heq => rw [heq]; decide
  split at h
  · next heq => rw [heq]; decide
  split at h
  · next heq => rw [heq]; decide
  dsimp only at h
  split at h
  · next digits _ _ _ _ _ =>
      split at h
      · next hd =>
          have hmem := hdigits (by decide) hd.2.1
          simp only [mem_cons, not_or]
          exact ⟨by decide, by decide, hmem⟩
      · exact absurd h (by simp)
  · next digits _ _ _ _ _ _ =>
      split at h
      · next hd =>
          have hmem := hdigits (by decide) hd.2.1
          simp only [mem_cons, not_or]
          exact ⟨by decide, hmem⟩
      · exact absurd h (by simp)
  · exact absurd h (by simp)

theorem cost_nonneg (hc : c ≠ byte '<') : 0 ≤ cost c := by
  rw [cost, if_neg hc]
  split <;> decide

theorem cost_spec : ∀ c : Byte, mark c ≤ 1 ∧
    (c ≠ byte '<' → c ≠ byte '&' → c ≠ byte '\r' → mark c = cost c) := by
  decide +kernel

/-- **One byte** gives no more marks than it costs. -/
theorem marks_step (hc : c ≠ byte '\r') (h : step s c = some s') : s'.marks ≤ s.marks + cost c := by
  obtain ⟨mode, children, parents⟩ := s
  cases mode with
  | content brackets =>
    simp only [step] at h
    split at h
    · next hlt =>
        obtain rfl := Option.some.inj h
        subst hlt
        have hcost : cost (byte '<') = -1 := by decide
        simp only [State.marks, Mode.marks, hcost]
        linarith
    split at h
    · next hamp =>
        obtain rfl := Option.some.inj h
        subst hamp
        have hcost : cost (byte '&') = 0 := by decide
        simp [State.marks, Mode.marks, hcost]
    split at h
    · exact absurd h (by simp)
    split at h
    · next hlt hamp _ _ =>
        obtain rfl := Option.some.inj h
        have hmark := (cost_spec c).2 hlt hamp hc
        simp only [State.marks, Mode.marks, marksList_addText, weigh_cons, weigh_nil, hmark]
        linarith
    · exact absurd h (by simp)
  | tag read =>
    simp only [step] at h
    split at h
    · next hgt =>
        subst hgt
        have hcost : cost (byte '>') = 1 := by decide
        rw [marks_endTag rfl h, hcost]
    split at h
    · exact absurd h (by simp)
    · next hlt =>
        obtain rfl := Option.some.inj h
        have hcost := cost_nonneg hlt
        simp only [State.marks, Mode.marks]
        linarith
  | reference read =>
    simp only [step] at h
    split at h
    · next hsemi =>
        subst hsemi
        obtain ⟨d, hd, rfl⟩ := Option.map_eq_some_iff.mp h
        have hcount : read.count (byte '<') = 0 :=
          count_eq_zero.mpr (not_mem_of_decodeReference hd)
        have hcost : cost (byte ';') = 1 := by decide
        have hmark := (cost_spec d).1
        simp only [State.marks, Mode.marks, marksList_addText, weigh_cons, weigh_nil, hcost, hcount]
        push_cast
        linarith
    · obtain rfl := Option.some.inj h
      simp only [State.marks, Mode.marks, count_append, count_singleton]
      by_cases hlt : c = byte '<'
      · subst hlt
        have hcost : cost (byte '<') = -1 := by decide
        rw [hcost]
        push_cast
        simp only [beq_self_eq_true, if_true]
        linarith
      · have hcost := cost_nonneg hlt
        rw [if_neg (by simpa using hlt)]
        push_cast
        linarith

theorem marks_run (ht : byte '\r' ∉ t) (h : run s t = some s') :
    s'.marks ≤ s.marks + weigh cost t := by
  induction t generalizing s with
  | nil =>
    obtain rfl := Option.some.inj h
    simp
  | cons c t ih =>
    obtain ⟨hc, ht⟩ := ne_and_not_mem_of_not_mem_cons ht
    rw [run_cons] at h
    obtain ⟨s₁, hstep, hrun⟩ := Option.bind_eq_some_iff.mp h
    have hfirst := marks_step hc.symm hstep
    have hrest := ih ht hrun
    rw [weigh_cons]
    linarith

/-- **The nodes of a document** have no more marks than it costs. -/
theorem marks_parse_le (ht : byte '\r' ∉ t)
    (h : parse t = some nodes) : Node.marksList nodes ≤ weigh cost t := by
  rw [parse] at h
  split at h
  · next brackets children hrun =>
      obtain rfl := Option.some.inj h
      have hmarks := marks_run ht hrun
      rw [marksList_reverse]
      simpa [State.marks, Mode.marks, Node.marksList] using hmarks
  · exact absurd h (by simp)

end SipXRouter.Xml
