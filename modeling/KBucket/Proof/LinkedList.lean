import KBucket.Lib.Dlseg
import KBucket.Lib.Run
import KBucket.Utils.LinkedList

/-!
# The linked list as a sequence

`Chain list nodes` says that `nodes`, from head to tail, are the nodes of the list: a doubly
linked segment (`Lib.Dlseg`) of living nodes. It is kept by every operation on members, so that
such a list refines a sequence (`refines_sequence`).

`Linked` is weaker, and kept by every operation whatever it is called on: a node that is no member
may be removed once more, after which head and tail can belong to different chains, or only one
of them be there. What survives even that is that `next` and `previous` are each other's inverse,
that nothing comes before the head, and nothing after the tail. It says exactly when `remove` of a
node that is no member leaves the list as it was, in every list there can be
(`remove_stale_keeps_iff`): when the node still stands between two others, or has no links left
and the list has neither a head nor a tail.

`refines_sequence` is about runs whose removals are of members. That is a guard on each step,
and not on the list at the end, so it says nothing of a run after its first removal of a stale
node. `remove_stale_keeps_iff` takes over there: its hypothesis is that some operations, of
whatever kind, led to the list.
-/

namespace KBucket
namespace LinkedList

open Lib

variable {T : Type} {list : LinkedList T} {nodes : List Nat}

/-- The well-formed chain with the nodes `nodes`. -/
structure WellFormed (list : LinkedList T) (nodes : List Nat) : Prop where
  forward : Forward list.next list.head nodes
  head_previous : ∀ h, list.head = some h → list.previous h = none
  tail_next : ∀ t, list.tail = some t → list.next t = none
  inverse : ∀ a ∈ nodes, ∀ b ∈ nodes, list.next a = some b ↔ list.previous b = some a
  tail_last : list.tail = nodes.getLast?
  head_nil_iff : list.head = none ↔ list.tail = none

structure Chain (list : LinkedList T) (nodes : List Nat) : Prop where
  head : list.head = nodes.head?
  tail : list.tail = nodes.getLast?
  linked : Dlseg list.next list.previous none nodes none
  nodup : nodes.Nodup
  alive : ∀ a ∈ nodes, list.isAlive a

/-- What holds of all references, whatever chain they belong to. -/
structure Sound (list : LinkedList T) : Prop where
  alive_created : ∀ a, list.isAlive a → a < list.created
  weak_created : ∀ a p, list.weakPrevious a = some p → p < list.created
  next_alive : ∀ a b, list.next a = some b → list.isAlive b
  head_alive : ∀ a, list.head = some a → list.isAlive a
  tail_alive : ∀ a, list.tail = some a → list.isAlive a

/-- What holds of every list there can be. -/
structure Linked (list : LinkedList T) : Prop extends Sound list where
  next_iff : ∀ a b, list.next a = some b ↔ list.previous b = some a
  head_previous : ∀ a, list.head = some a → list.previous a = none
  tail_next : ∀ a, list.tail = some a → list.next a = none

structure Inv (list : LinkedList T) (nodes : List Nat) : Prop extends
    Chain list nodes, Linked list

/-! ## Reading the list -/

theorem previous_alive {a p : Nat} (h : list.previous a = some p) : list.isAlive p :=
  (Option.filter_eq_some_iff.mp h).2

theorem alive_of_next {a b : Nat} (h : list.next a = some b) : list.isAlive a := by
  cases ha : list.objects a with
  | none => simp [next, ha] at h
  | some node => simp [isAlive, ha]

theorem nodeAfter_eq {start : Option Nat} (h : Forward list.next start nodes) (i : Nat) :
    list.nodeAfter i start = nodes[i]? := by
  induction h generalizing i with
  | nil => cases i <;> rfl
  | cons _ ih =>
    cases i with
    | zero => rfl
    | succ i => exact ih i

theorem nodeAt_eq (h : Forward list.next list.head nodes) (index : Int) :
    list.nodeAt index = if 0 ≤ index then nodes[index.toNat]? else none := by
  rw [nodeAt, nodeAfter_eq h]

/-- **The nodes that `nodeAt` finds are those of the way forward.** -/
theorem member_iff (h : Forward list.next list.head nodes) {node : Nat} :
    list.Member node ↔ node ∈ nodes := by
  constructor
  · intro hmember
    obtain ⟨index, hindex⟩ := hmember
    rw [nodeAt_eq h] at hindex
    split at hindex
    · exact List.mem_of_getElem? hindex
    · cases hindex
  · intro hmem
    obtain ⟨i, hi⟩ := List.getElem?_of_mem hmem
    exact ⟨i, by rw [nodeAt_eq h, if_pos (Int.natCast_nonneg i)]; exact hi⟩

/-- The values between the brackets. -/
theorem describe_eq {text : T → String} {start : Option Nat} (h : Forward list.next start nodes)
    {values : List T} (hv : nodes.map list.value = values.map some) {fuel : Nat}
    (hfuel : nodes.length ≤ fuel) (acc : String) :
    list.describe text fuel acc start =
      some (acc ++ ", ".intercalate (values.map text) ++ "]") := by
  -- By the way forward: the loop asks for the next node to know whether a comma follows.
  induction h generalizing acc values fuel with
  | nil =>
    obtain rfl : values = [] := by simpa using hv.symm
    cases fuel <;> simp [describe]
  | @cons a as has ih =>
    obtain ⟨fuel, rfl⟩ : ∃ k, fuel = k + 1 := ⟨fuel - 1, by simp at hfuel; omega⟩
    cases values with
    | nil => cases hv
    | cons x xs =>
      obtain ⟨hx, hxs⟩ := List.cons.inj hv
      rw [describe, ih hxs (Nat.le_of_succ_le_succ hfuel), hx]
      cases hnext : list.next a with
      | none =>
        rw [hnext] at has
        cases has
        obtain rfl : xs = [] := by simpa using hxs.symm
        simp
      | some b =>
        rw [hnext] at has
        cases has
        cases xs with
        | nil => cases hxs
        | cons y ys => simp [String.append_assoc]

/-! ## A chain is well formed -/

theorem Chain.forward (h : Chain list nodes) : Forward list.next list.head nodes := by
  rw [h.head]
  exact h.linked.forward

theorem Chain.previous_mem (h : Chain list nodes) {a p : Nat} (ha : a ∈ nodes)
    (hp : list.previous a = some p) : p ∈ nodes := by
  obtain ⟨as, bs, rfl⟩ := List.append_of_mem ha
  rw [h.linked.neighbours.1, Option.or_none] at hp
  exact List.mem_append_left _ (List.mem_of_getLast? hp)

theorem Chain.wellFormed (h : Chain list nodes) : WellFormed list nodes where
  forward := h.forward
  head_previous := by
    intro a ha
    rw [h.head] at ha
    cases nodes with
    | nil => cases ha
    | cons b bs =>
      obtain rfl : b = a := Option.some.inj ha
      exact h.linked.1
  tail_next := by
    intro a ha
    rw [h.tail] at ha
    obtain ⟨as, rfl⟩ := List.getLast?_eq_some_iff.mp ha
    exact (h.linked.neighbours).2
  inverse := by
    intro a ha b hb
    exact h.linked.next_eq_iff ha hb (by simp) (by simp)
  tail_last := h.tail
  head_nil_iff := by rw [h.head, h.tail]; simp

/-! ## What `append` does -/

section Append

variable (value : T)

theorem isAlive_create (a : Nat) :
    (list.create value).isAlive a = (a == list.created || list.isAlive a) := by
  by_cases h : a = list.created <;> simp [isAlive, create, h]

theorem value_create (a : Nat) :
    (list.create value).value a = if a = list.created then some value else list.value a := by
  by_cases h : a = list.created <;> simp [LinkedList.value, create, h]

theorem next_create (a : Nat) :
    (list.create value).next a = if a = list.created then none else list.next a := by
  by_cases h : a = list.created <;> simp [next, create, h]

theorem weakPrevious_create (a : Nat) :
    (list.create value).weakPrevious a =
      if a = list.created then none else list.weakPrevious a := by
  by_cases h : a = list.created <;> simp [weakPrevious, create, h]

/-- No weak reference waits for the place of the new node. -/
theorem previous_create (h : Sound list) (a : Nat) :
    (list.create value).previous a = if a = list.created then none else list.previous a := by
  rw [previous, weakPrevious_create]
  by_cases ha : a = list.created
  · rw [if_pos ha, if_pos ha]
    rfl
  · rw [if_neg ha, if_neg ha, previous]
    cases hp : list.weakPrevious a with
    | none => rfl
    | some p =>
      have hne : p ≠ list.created := Nat.ne_of_lt (h.weak_created a p hp)
      simp [Option.filter, isAlive_create, hne]

theorem Sound.ne_created (h : Sound list) {a : Nat} (ha : list.isAlive a) : a ≠ list.created :=
  Nat.ne_of_lt (h.alive_created a ha)

theorem next_append (h : Sound list) (a : Nat) :
    (list.append value).next a = if a = list.created then none
      else if list.tail = some a then some list.created else list.next a := by
  cases ht : list.tail with
  | none => simp [append, ht, next_create]
  | some b =>
    have hb := h.tail_alive b ht
    have hne := h.ne_created hb
    simp only [append, ht, next_setTail]
    rw [next_setNext, next_setPrevious, next_create, isAlive_setPrevious, isAlive_create]
    by_cases hab : a = b
    · subst hab
      simp [hb, hne]
    · simp [hab, Ne.symm hab]

theorem isAlive_append (a : Nat) :
    (list.append value).isAlive a = (a == list.created || list.isAlive a) := by
  cases ht : list.tail <;> simp [append, ht, isAlive_create]

theorem value_append (a : Nat) :
    (list.append value).value a = if a = list.created then some value else list.value a := by
  cases ht : list.tail <;> simp [append, ht, value_create]

theorem weakPrevious_append (a : Nat) :
    (list.append value).weakPrevious a =
      if a = list.created then list.tail else list.weakPrevious a := by
  cases ht : list.tail with
  | none => simp [append, ht, weakPrevious_create]
  | some b =>
    simp only [append, ht, weakPrevious_setTail]
    rw [weakPrevious_setNext, weakPrevious_setPrevious, weakPrevious_create, isAlive_create]
    by_cases ha : a = list.created <;> simp [ha]

theorem previous_append (h : Sound list) (a : Nat) :
    (list.append value).previous a =
      if a = list.created then list.tail else list.previous a := by
  cases ht : list.tail with
  | none => simp [append, ht, previous_create value h]
  | some b =>
    have hb := h.tail_alive b ht
    simp only [append, ht, previous_setTail]
    rw [previous_setNext, previous_setPrevious, previous_create value h]
    by_cases ha : a = list.created
    · simp [ha, isAlive_create, hb, Option.filter]
    · simp [ha]

theorem head_append : (list.append value).head =
    if list.tail = none then some list.created else list.head := by
  cases ht : list.tail <;> simp [append, ht, create]

@[simp] theorem tail_append : (list.append value).tail = some list.created := rfl

@[simp] theorem created_append : (list.append value).created = list.created + 1 := by
  cases ht : list.tail <;> simp [append, ht, create]

theorem Sound.append (h : Sound list) : Sound (list.append value) where
  alive_created := by
    intro a ha
    rw [isAlive_append, Bool.or_eq_true] at ha
    rw [created_append]
    rcases ha with ha | ha
    · exact Nat.lt_succ_of_le (Nat.le_of_eq (by simpa using ha))
    · exact Nat.lt_succ_of_lt (h.alive_created a ha)
  weak_created := by
    intro a p hp
    rw [weakPrevious_append] at hp
    rw [created_append]
    split at hp
    · exact Nat.lt_succ_of_lt (h.alive_created p (h.tail_alive p hp))
    · exact Nat.lt_succ_of_lt (h.weak_created a p hp)
  next_alive := by
    intro a b hb
    rw [next_append value h] at hb
    rw [isAlive_append]
    split at hb
    · cases hb
    · split at hb
      · rw [← Option.some.inj hb]
        simp
      · simp [h.next_alive a b hb]
  head_alive := by
    intro a ha
    rw [head_append] at ha
    rw [isAlive_append]
    split at ha
    · simp [← Option.some.inj ha]
    · simp [h.head_alive a ha]
  tail_alive := by
    intro a ha
    rw [isAlive_append]
    simp [← Option.some.inj ha]

/-- Nothing is linked to the place of the new node. -/
theorem Sound.created_apart (h : Sound list) (a : Nat) :
    list.next a ≠ some list.created ∧ list.previous a ≠ some list.created :=
  ⟨fun hnext => h.ne_created (h.next_alive a _ hnext) rfl,
    fun hprevious => h.ne_created (previous_alive hprevious) rfl⟩

theorem Linked.append (h : Linked list) : Linked (list.append value) where
  toSound := h.toSound.append value
  next_iff := by
    intro a b
    rw [next_append value h.toSound, previous_append value h.toSound]
    have hcreated := h.created_apart
    by_cases ha : a = list.created
    · rw [if_pos ha]
      split
      · have htail : list.tail ≠ some a := fun ht => h.ne_created (h.tail_alive a ht) ha
        simp [htail]
      · simp [ha, (hcreated b).2]
    · rw [if_neg ha]
      by_cases hb : b = list.created
      · rw [if_pos hb, hb]
        split
        · simp [*]
        · simp [*]
      · rw [if_neg hb]
        split
        · next ht =>
          -- Nothing came after the old tail.
          rw [← h.next_iff a b, h.tail_next a ht]
          simp [Ne.symm hb]
        · exact h.next_iff a b
  head_previous := by
    intro a ha
    rw [head_append] at ha
    rw [previous_append value h.toSound]
    split at ha
    · next ht => rw [if_pos (Option.some.inj ha).symm, ht]
    · rw [if_neg (h.ne_created (h.head_alive a ha)), h.head_previous a ha]
  tail_next := by
    intro a ha
    rw [next_append value h.toSound, if_pos (Option.some.inj ha).symm]

/-- **The new node comes last.** -/
theorem Inv.append (h : Inv list nodes) :
    Inv (list.append value) (nodes ++ [list.created]) := by
  have hdead : ¬ list.isAlive list.created := fun halive =>
    absurd (h.alive_created _ halive) (Nat.lt_irrefl _)
  have hother : ∀ a ∈ nodes, a ≠ list.created := by
    rintro a ha rfl
    exact hdead (h.alive _ ha)
  -- The segment of the old nodes is relinked at its end, and the new node is a segment of its own.
  refine ⟨⟨?_, ?_, ?_, ?_, ?_⟩, h.toLinked.append value⟩
  · rw [head_append, h.tail, h.head]
    cases nodes <;> simp
  · simp
  · refine Dlseg.append_iff.mpr ⟨?_, ?_⟩
    · refine h.linked.relink_after h.nodup ?_ ?_
      · intro a ha
        rw [next_append value h.toSound, if_neg (hother a ha), h.tail]
        rfl
      · intro a ha
        rw [previous_append value h.toSound, if_neg (hother a ha)]
    · refine Dlseg.singleton_iff.mpr ⟨?_, ?_⟩
      · rw [previous_append value h.toSound, if_pos rfl, h.tail, Option.or_none]
      · rw [next_append value h.toSound, if_pos rfl]
  · refine List.nodup_append.mpr ⟨h.nodup, List.nodup_singleton _, ?_⟩
    intro a ha b hb
    rw [List.mem_singleton.mp hb]
    exact hother a ha
  · intro a ha
    rw [isAlive_append]
    rcases List.mem_append.mp ha with ha | ha
    · simp [h.alive a ha]
    · simp [List.mem_singleton.mp ha]

end Append

/-! ## What `remove` does -/

section Remove

variable (list) (prev next : Option Nat) (node a : Nat)

@[simp] theorem isAlive_linkForth : (list.linkForth prev next).isAlive a = list.isAlive a := by
  cases prev <;> simp [linkForth]

@[simp] theorem isAlive_linkBack : (list.linkBack next prev).isAlive a = list.isAlive a := by
  cases next <;> simp [linkBack]

@[simp] theorem value_linkForth : (list.linkForth prev next).value a = list.value a := by
  cases prev <;> simp [linkForth]

@[simp] theorem value_linkBack : (list.linkBack next prev).value a = list.value a := by
  cases next <;> simp [linkBack]

theorem next_linkForth : (list.linkForth prev next).next a =
    if prev = some a ∧ list.isAlive a then next else list.next a := by
  cases prev with
  | none => simp [linkForth]
  | some p =>
    rw [linkForth, next_setNext]
    rcases eq_or_ne a p with rfl | h
    · simp
    · simp [h, h.symm]

@[simp] theorem next_linkBack : (list.linkBack next prev).next a = list.next a := by
  cases next <;> simp [linkBack]

@[simp] theorem previous_linkForth : (list.linkForth prev next).previous a = list.previous a := by
  cases prev <;> simp [linkForth]

theorem previous_linkBack (hp : ∀ p, prev = some p → list.isAlive p) :
    (list.linkBack next prev).previous a =
      if next = some a ∧ list.isAlive a then prev else list.previous a := by
  cases next with
  | none => simp [linkBack]
  | some n =>
    have hfilter : prev.filter list.isAlive = prev := by
      cases prev with
      | none => rfl
      | some p => simp [Option.filter, hp p rfl]
    rw [linkBack, previous_setPrevious, hfilter]
    rcases eq_or_ne a n with rfl | h
    · simp
    · simp [h, h.symm]

@[simp] theorem weakPrevious_linkForth :
    (list.linkForth prev next).weakPrevious a = list.weakPrevious a := by
  cases prev <;> simp [linkForth]

theorem weakPrevious_linkBack {p : Nat} (h : (list.linkBack next prev).weakPrevious a = some p) :
    prev = some p ∨ list.weakPrevious a = some p := by
  cases next with
  | none => exact Or.inr (by simpa [linkBack] using h)
  | some n =>
    rw [linkBack, weakPrevious_setPrevious] at h
    split at h
    · exact Or.inl h
    · exact Or.inr h

@[simp] theorem isAlive_remove : (list.remove node).1.isAlive a = list.isAlive a := by
  simp [remove]

@[simp] theorem value_remove : (list.remove node).1.value a = list.value a := by
  simp [remove]

@[simp] theorem created_remove : (list.remove node).1.created = list.created := by
  cases hp : list.previous node <;> cases hn : list.next node <;>
    simp [remove, linkForth, linkBack, hp, hn]

theorem head_remove : (list.remove node).1.head =
    if list.previous node = none then list.next node else list.head := by
  cases hp : list.previous node <;> cases hn : list.next node <;>
    simp [remove, linkForth, linkBack, hp, hn]

theorem tail_remove : (list.remove node).1.tail =
    if list.next node = none then list.previous node else list.tail := by
  cases hp : list.previous node <;> cases hn : list.next node <;>
    simp [remove, linkForth, linkBack, hp, hn]

variable {list node}

theorem next_remove (hnode : list.isAlive node) : (list.remove node).1.next a =
    if a = node then none
    else if list.previous node = some a then list.next node else list.next a := by
  simp only [remove, next_setNext, next_setPrevious, next_linkBack, next_linkForth,
    isAlive_setPrevious, isAlive_linkBack, isAlive_linkForth, hnode, and_true]
  by_cases hp : list.previous node = some a
  · simp [hp, previous_alive hp]
  · simp [hp]

theorem previous_remove (h : ∀ b, list.next node = some b → list.isAlive b)
    (hnode : list.isAlive node) : (list.remove node).1.previous a =
    if a = node then none
    else if list.next node = some a then list.previous node else list.previous a := by
  have hback := previous_linkBack (list.linkForth (list.previous node) (list.next node))
    (list.previous node) (list.next node) a (fun p hp => by simpa using previous_alive hp)
  simp only [remove, previous_setNext, previous_setPrevious, hback, previous_linkForth,
    isAlive_linkBack, isAlive_linkForth, hnode, and_true]
  by_cases hn : list.next node = some a
  · simp [hn, h a hn]
  · simp [hn]

theorem weakPrevious_remove {p : Nat} (h : (list.remove node).1.weakPrevious a = some p) :
    list.previous node = some p ∨ list.weakPrevious a = some p := by
  simp only [remove, weakPrevious_setNext, weakPrevious_setPrevious] at h
  split at h
  · cases h
  · rcases weakPrevious_linkBack _ _ _ _ h with h | h
    · exact Or.inl h
    · exact Or.inr (by simpa using h)

theorem Sound.remove (h : Sound list) (hnode : list.isAlive node) :
    Sound (list.remove node).1 where
  alive_created := by
    intro a ha
    rw [created_remove]
    exact h.alive_created a (by simpa using ha)
  weak_created := by
    intro a p hp
    rw [created_remove]
    rcases weakPrevious_remove a hp with hp | hp
    · exact h.alive_created p (previous_alive hp)
    · exact h.weak_created a p hp
  next_alive := by
    intro a b hb
    rw [next_remove a hnode] at hb
    rw [isAlive_remove]
    split at hb
    · cases hb
    · split at hb
      · exact h.next_alive node b hb
      · exact h.next_alive a b hb
  head_alive := by
    intro a ha
    rw [head_remove] at ha
    rw [isAlive_remove]
    split at ha
    · exact h.next_alive node a ha
    · exact h.head_alive a ha
  tail_alive := by
    intro a ha
    rw [tail_remove] at ha
    rw [isAlive_remove]
    split at ha
    · exact previous_alive ha
    · exact h.tail_alive a ha

/-- Whatever the node is linked to, its neighbours are linked to one another. -/
theorem Linked.remove (h : Linked list) (hnode : list.isAlive node) :
    Linked (list.remove node).1 where
  toSound := h.toSound.remove hnode
  next_iff := by
    intro a b
    rw [next_remove a hnode, previous_remove b (h.next_alive node) hnode]
    have hab := h.next_iff a b
    have hbefore := h.next_iff a node
    have hafter := h.next_iff node b
    have hself := h.next_iff node node
    -- A link is rewritten at both of its ends: it went into the node, or came out of it.
    by_cases ha : a = node <;> by_cases hb : b = node <;>
      by_cases hp : list.previous node = some a <;> by_cases hn : list.next node = some b <;>
      grind
  head_previous := by
    intro a ha
    rw [head_remove] at ha
    rw [previous_remove a (h.next_alive node) hnode]
    split at ha
    · next hp =>
      -- The new head came after the node, before which there is nothing.
      rw [if_pos ha, hp, ite_self]
    · have hhead := h.head_previous a ha
      have hn : list.next node ≠ some a := by
        intro hn
        rw [(h.next_iff node a).mp hn] at hhead
        cases hhead
      rw [if_neg hn, hhead, ite_self]
  tail_next := by
    intro a ha
    rw [tail_remove] at ha
    rw [next_remove a hnode]
    split at ha
    · next hn => rw [if_pos ha, hn, ite_self]
    · have htail := h.tail_next a ha
      have hp : list.previous node ≠ some a := by
        intro hp
        rw [(h.next_iff a node).mpr hp] at htail
        cases htail
      rw [if_neg hp, htail, ite_self]

variable {as bs : List Nat}

theorem ne_of_mem_sides (h : (as ++ node :: bs).Nodup) {a : Nat} (ha : a ∈ as ++ bs) :
    a ≠ node := by
  obtain ⟨-, hbs, hdisjoint⟩ := List.nodup_append.mp h
  rcases List.mem_append.mp ha with ha | ha
  · exact hdisjoint a ha node (by simp)
  · rintro rfl
    exact (List.nodup_cons.mp hbs).1 ha

theorem filter_ne_sides (h : (as ++ node :: bs).Nodup) :
    (as ++ node :: bs).filter (· ≠ node) = as ++ bs := by
  rw [List.filter_append, List.filter_cons_of_neg (by simp), ← List.filter_append]
  refine List.filter_eq_self.mpr fun a ha => ?_
  simpa using ne_of_mem_sides h ha

/-- What stood before the node is linked to what stood behind it. -/
theorem Inv.chain_remove (h : Inv list (as ++ node :: bs)) :
    Chain (list.remove node).1 (as ++ bs) := by
  have hnode := h.alive node (by simp)
  have hnext := h.next_alive node
  have hne : ∀ a ∈ as ++ bs, a ≠ node := fun a ha => ne_of_mem_sides h.nodup ha
  obtain ⟨has, hbs, hdisjoint⟩ := List.nodup_append.mp h.nodup
  obtain ⟨-, hbs⟩ := List.nodup_cons.mp hbs
  -- The neighbours of the node are the last before it and the first behind it.
  obtain ⟨hp, hn⟩ := h.linked.neighbours
  rw [Option.or_none] at hp hn
  obtain ⟨hbefore, -, -, hafter⟩ := Dlseg.append_iff.mp h.linked
  refine ⟨?_, ?_, ?_, ?_, ?_⟩
  · rw [head_remove, hp, hn, h.head]
    cases as <;> simp
  · rw [tail_remove, hp, hn, h.tail]
    cases bs <;> simp
  · refine Dlseg.append_iff.mpr ⟨?_, ?_⟩
    · refine hbefore.relink_after has ?_ ?_
      · intro a ha
        rw [next_remove a hnode, if_neg (hne a (by simp [ha])), hp, hn, Option.or_none]
      · intro a ha
        have hother : bs.head? ≠ some a := by
          intro hhead
          exact hdisjoint a ha a (by simp [List.mem_of_head? hhead]) rfl
        rw [previous_remove a hnext hnode, if_neg (hne a (by simp [ha])), hn, if_neg hother]
    · refine Dlseg.relink_before hafter hbs ?_ ?_
      · intro a ha
        have hother : as.getLast? ≠ some a := by
          intro hlast
          exact hdisjoint a (List.mem_of_getLast? hlast) a (by simp [ha]) rfl
        rw [next_remove a hnode, if_neg (hne a (by simp [ha])), hp, if_neg hother]
      · intro a ha
        rw [previous_remove a hnext hnode, if_neg (hne a (by simp [ha])), hp, hn, Option.or_none]
  · exact List.nodup_append.mpr ⟨has, hbs, fun a ha b hb => hdisjoint a ha b (by simp [hb])⟩
  · intro a ha
    rw [isAlive_remove]
    rcases List.mem_append.mp ha with ha | ha
    · exact h.alive a (by simp [ha])
    · exact h.alive a (by simp [ha])

/-- **A member is unlinked.** -/
theorem Inv.remove_member (h : Inv list nodes) (hmem : node ∈ nodes) :
    Inv (list.remove node).1 (nodes.filter (· ≠ node)) := by
  obtain ⟨as, bs, rfl⟩ := List.append_of_mem hmem
  rw [filter_ne_sides h.nodup]
  exact ⟨h.chain_remove, h.toLinked.remove (h.alive node hmem)⟩

end Remove

/-! ## The other events -/

theorem Linked.empty : Linked ({} : LinkedList T) where
  alive_created := by intro a ha; cases ha
  weak_created := by intro a p hp; cases hp
  next_alive := by intro a b hb; cases hb
  head_alive := by intro a ha; cases ha
  tail_alive := by intro a ha; cases ha
  next_iff := by intro a b; exact ⟨nofun, nofun⟩
  head_previous := by intro a ha; cases ha
  tail_next := by intro a ha; cases ha

theorem Linked.removeAll (h : Linked list) : Linked list.removeAll where
  alive_created := h.alive_created
  weak_created := h.weak_created
  next_alive := h.next_alive
  head_alive := by intro a ha; cases ha
  tail_alive := by intro a ha; cases ha
  next_iff := h.next_iff
  head_previous := by intro a ha; cases ha
  tail_next := by intro a ha; cases ha

theorem Inv.empty : Inv ({} : LinkedList T) [] where
  toLinked := .empty
  head := rfl
  tail := rfl
  linked := trivial
  nodup := List.nodup_nil
  alive := by simp

theorem Inv.removeAll (h : Inv list nodes) : Inv list.removeAll [] where
  toLinked := h.toLinked.removeAll
  head := rfl
  tail := rfl
  linked := trivial
  nodup := List.nodup_nil
  alive := by simp

section Free

variable {node : Nat} (a : Nat)

theorem isAlive_free : (list.free node).isAlive a = (a != node && list.isAlive a) := by
  by_cases h : a = node <;> simp [isAlive, free, h]

theorem value_free : (list.free node).value a = if a = node then none else list.value a := by
  by_cases h : a = node <;> simp [value, free, h]

theorem next_free : (list.free node).next a = if a = node then none else list.next a := by
  by_cases h : a = node <;> simp [next, free, h]

theorem weakPrevious_free :
    (list.free node).weakPrevious a = if a = node then none else list.weakPrevious a := by
  by_cases h : a = node <;> simp [weakPrevious, free, h]

theorem previous_free {p : Nat} :
    (list.free node).previous a = some p ↔ list.previous a = some p ∧ a ≠ node ∧ p ≠ node := by
  by_cases h : a = node
  · simp [previous, weakPrevious_free, h]
  · simp [previous, weakPrevious_free, h, Option.filter_eq_some_iff, isAlive_free]
    tauto

/-- No node that is alive refers to one that nothing holds on to. -/
theorem next_ne_of_released (h : Sound list) (hreleased : list.isReleased node) :
    list.next a ≠ some node := by
  intro hnext
  have hlt := h.alive_created a (alive_of_next hnext)
  simp only [isReleased, Bool.and_eq_true, List.all_eq_true, List.mem_range, bne_iff_ne]
    at hreleased
  exact hreleased.2 a hlt hnext

theorem Inv.not_mem_of_released (h : Inv list nodes) (hreleased : list.isReleased node) :
    node ∉ nodes := by
  intro hmem
  obtain ⟨as, bs, rfl⟩ := List.append_of_mem hmem
  -- A member is held by the list, if it is the first, or else by the member before it.
  rcases List.eq_nil_or_concat as with rfl | ⟨as, a, rfl⟩
  · have hhead := h.head
    simp [isReleased, hhead] at hreleased
  · have hlinked := h.linked
    rw [List.concat_eq_append, List.append_assoc, List.singleton_append] at hlinked
    exact next_ne_of_released a h.toSound hreleased hlinked.neighbours.2

theorem Linked.free (h : Linked list) (hreleased : list.isReleased node) :
    Linked (list.free node) where
  alive_created := by
    intro a ha
    rw [isAlive_free, Bool.and_eq_true] at ha
    exact h.alive_created a ha.2
  weak_created := by
    intro a p hp
    rw [weakPrevious_free] at hp
    split at hp
    · cases hp
    · exact h.weak_created a p hp
  next_alive := by
    intro a b hb
    rw [next_free] at hb
    split at hb
    · cases hb
    · have hne : b ≠ node := by
        rintro rfl
        exact next_ne_of_released a h.toSound hreleased hb
      rw [isAlive_free]
      simp [hne, h.next_alive a b hb]
  head_alive := by
    intro a ha
    have hne : a ≠ node := by
      rintro rfl
      simp [isReleased, show list.head = some a from ha] at hreleased
    rw [isAlive_free]
    simp [hne, h.head_alive a ha]
  tail_alive := by
    intro a ha
    have hne : a ≠ node := by
      rintro rfl
      simp [isReleased, show list.tail = some a from ha] at hreleased
    rw [isAlive_free]
    simp [hne, h.tail_alive a ha]
  next_iff := by
    intro a b
    rw [next_free, previous_free, ← h.next_iff a b]
    by_cases ha : a = node
    · simp [ha]
    · rw [if_neg ha]
      refine ⟨fun hb => ⟨hb, ?_, ha⟩, fun hb => hb.1⟩
      rintro rfl
      exact next_ne_of_released a h.toSound hreleased hb
  head_previous := by
    intro a ha
    have hhead := h.head_previous a ha
    cases hp : (list.free node).previous a with
    | none => rfl
    | some p =>
      rw [((previous_free a).mp hp).1] at hhead
      cases hhead
  tail_next := by
    intro a ha
    rw [next_free, h.tail_next a ha, ite_self]

theorem Inv.free (h : Inv list nodes) (hreleased : list.isReleased node) :
    Inv (list.free node) nodes := by
  have hnot := h.not_mem_of_released hreleased
  have hother : ∀ a ∈ nodes, a ≠ node := by
    rintro a ha rfl
    exact hnot ha
  refine ⟨⟨h.head, h.tail, ?_, h.nodup, ?_⟩, h.toLinked.free hreleased⟩
  · refine h.linked.congr ?_ ?_
    · intro a ha
      rw [next_free, if_neg (hother a ha)]
    · intro a ha
      refine Option.ext fun p => ?_
      rw [previous_free]
      constructor
      · intro hp
        exact hp.1
      · intro hp
        exact ⟨hp, hother a ha, hother p (h.previous_mem ha hp)⟩
  · intro a ha
    rw [isAlive_free]
    simp [hother a ha, h.alive a ha]

end Free

/-! ## The list as a sequence -/

/-- What the list is for: a sequence of values, each under the node that was made for it. -/
structure Sequence (T : Type) where
  created : Nat := 0
  items : List (Nat × T) := []

def Sequence.values (s : Sequence T) : List T := s.items.map Prod.snd

def Sequence.members (s : Sequence T) : List Nat := s.items.map Prod.fst

def Sequence.apply (s : Sequence T) : Event T → Sequence T
  | .append value => { created := s.created + 1, items := s.items ++ [(s.created, value)] }
  | .remove node => { s with items := s.items.filter fun item => item.1 ≠ node }
  | .removeAll => { s with items := [] }
  | .deinit _ => s

/-- Only members are removed. -/
def RemovesMember (list : LinkedList T) : Event T → Prop
  | .remove node => list.Member node
  | _ => True

structure Represents (list : LinkedList T) (s : Sequence T) : Prop where
  inv : Inv list s.members
  created : list.created = s.created
  values : ∀ item ∈ s.items, list.value item.1 = some item.2

/-- What an event makes of the members. -/
def nodesAfter (list : LinkedList T) (nodes : List Nat) : Event T → List Nat
  | .append _ => nodes ++ [list.created]
  | .remove node => nodes.filter (· ≠ node)
  | .removeAll => []
  | .deinit _ => nodes

/-- **Every event keeps the links**, whatever it is called on. -/
theorem Linked.step {t : LinkedList T} {e : Event T} (h : Linked list)
    (ht : LinkedList.step list e = .ok t) : Linked t := by
  cases e with
  | append value =>
    cases ht
    exact h.append value
  | remove node =>
    cases ht
    split
    · next halive => exact h.remove halive
    · exact h
  | removeAll =>
    cases ht
    exact h.removeAll
  | deinit node =>
    cases ht
    split
    · next hreleased => exact h.free hreleased
    · exact h

/-- **Every event on members keeps the chain.** -/
theorem Inv.step {t : LinkedList T} {e : Event T} (h : Inv list nodes)
    (hguard : list.RemovesMember e) (ht : LinkedList.step list e = .ok t) :
    Inv t (list.nodesAfter nodes e) := by
  cases e with
  | append value =>
    cases ht
    exact h.append value
  | remove node =>
    cases ht
    have hmem := (member_iff h.forward).mp hguard
    rw [if_pos (h.alive node hmem)]
    exact h.remove_member hmem
  | removeAll =>
    cases ht
    exact h.removeAll
  | deinit node =>
    cases ht
    simp only [nodesAfter]
    split
    · next hreleased => exact h.free hreleased
    · exact h

theorem Represents.step {t : LinkedList T} {e : Event T} {s : Sequence T} (h : Represents list s)
    (hguard : list.RemovesMember e) (ht : LinkedList.step list e = .ok t) :
    Represents t (s.apply e) := by
  have hinv := h.inv.step hguard ht
  cases e with
  | append value =>
    cases ht
    refine ⟨?_, ?_, ?_⟩
    · simpa [nodesAfter, Sequence.apply, Sequence.members, h.created] using hinv
    · simp [Sequence.apply, h.created]
    · intro item hitem
      simp only [Sequence.apply, List.mem_append, List.mem_singleton] at hitem
      rw [value_append]
      rcases hitem with hitem | rfl
      · have halive := h.inv.alive item.1 (List.mem_map_of_mem hitem)
        rw [if_neg (Nat.ne_of_lt (h.inv.alive_created _ halive)), h.values item hitem]
      · rw [if_pos h.created.symm]
  | remove node =>
    cases ht
    refine ⟨?_, ?_, ?_⟩
    · simpa [nodesAfter, Sequence.apply, Sequence.members, List.filter_map, Function.comp_def]
        using hinv
    · split
      · rw [created_remove]
        exact h.created
      · exact h.created
    · intro item hitem
      have hvalue := h.values item (List.mem_of_mem_filter hitem)
      split
      · rw [value_remove]
        exact hvalue
      · exact hvalue
  | removeAll =>
    cases ht
    exact ⟨hinv, h.created, by simp [Sequence.apply]⟩
  | deinit node =>
    cases ht
    refine ⟨hinv, ?_, ?_⟩
    · split
      · exact h.created
      · exact h.created
    · intro item hitem
      have hvalue := h.values item hitem
      split
      · next hreleased =>
        have hne : item.1 ≠ node := by
          rintro rfl
          exact h.inv.not_mem_of_released hreleased (List.mem_map_of_mem hitem)
        rw [value_free, if_neg hne]
        exact hvalue
      · exact hvalue

/-- **A list and the sequence that the same events make.** -/
theorem Represents.run {events : List (Event T)} (hr : Runs LinkedList.step {} events list)
    (hguard : Guarded LinkedList.step RemovesMember {} events) :
    Represents list (events.foldl Sequence.apply {}) := by
  refine hr.simulates ?_ ?_ hguard
  · intro list e t s h hg ht
    exact h.step hg ht
  · exact ⟨.empty, rfl, by simp⟩

theorem Represents.map_value {s : Sequence T} (h : Represents list s) :
    s.members.map list.value = s.values.map some := by
  rw [Sequence.members, Sequence.values, List.map_map, List.map_map]
  exact List.map_congr_left h.values

/-- All that a user of the list can see of it. -/
structure Reports (list : LinkedList T) (s : Sequence T) : Prop where
  wellFormed : WellFormed list s.members
  values : s.members.map list.value = s.values.map some
  isEmpty : list.isEmpty = s.values.isEmpty
  first : list.first = s.members.head?
  last : list.last = s.members.getLast?
  description : ∀ (text : T → String) (fuel : Nat), s.values.length ≤ fuel →
    list.description text fuel = some ("[" ++ ", ".intercalate (s.values.map text) ++ "]")
  nodeAt : ∀ index : Int,
    list.nodeAt index = if 0 ≤ index then s.members[index.toNat]? else none

theorem Represents.reports {s : Sequence T} (h : Represents list s) : Reports list s where
  wellFormed := h.inv.wellFormed
  values := h.map_value
  isEmpty := by
    rw [LinkedList.isEmpty, h.inv.head, Sequence.members, Sequence.values]
    cases s.items <;> rfl
  first := h.inv.head
  last := h.inv.tail
  description := by
    intro text fuel hfuel
    refine describe_eq h.inv.forward h.map_value ?_ "["
    simpa [Sequence.members, Sequence.values] using hfuel
  nodeAt := nodeAt_eq h.inv.forward

/-- **The list refines a sequence**: after any appends, removals of members and `removeAll`s it is
    a well-formed chain that shows the values which the same operations leave in a sequence.

    Only members are removed: what a removal of any other node does is said in
    `remove_stale_keeps_iff`. -/
theorem refines_sequence {events : List (Event T)} (hr : Runs LinkedList.step {} events list)
    (hguard : Guarded LinkedList.step RemovesMember {} events) :
    Reports list (events.foldl Sequence.apply {}) :=
  (Represents.run hr hguard).reports

/-- The head is removed from a list of two, and ends. -/
theorem refines_sequence_two :
    ∃ list : LinkedList Nat,
      Reports list (Sequence.apply (Sequence.apply (Sequence.apply (Sequence.apply {}
        (.append 7)) (.append 8)) (.remove 0)) (.deinit 0)) ∧
      list.nodeAt 0 = some 1 ∧ list.nodeAt (-1) = none :=
  ⟨_, @refines_sequence Nat _ [.append 7, .append 8, .remove 0, .deinit 0]
      (.cons rfl (.cons rfl (.cons rfl (.cons rfl (.nil _)))))
      ⟨trivial, fun _ h => by
        cases h
        exact ⟨trivial, fun _ h => by
          cases h
          exact ⟨⟨0, rfl⟩, fun _ h => by
            cases h
            exact ⟨trivial, fun _ _ => trivial⟩⟩⟩⟩,
    by decide, by decide⟩

/-! ## Removing a node once more

Of lists that need be no chains: head and tail may belong to different ones. -/

theorem nodeAfter_succ (list : LinkedList T) (i : Nat) (start : Option Nat) :
    list.nodeAfter (i + 1) start = (list.nodeAfter i start).bind list.next := by
  induction i generalizing start with
  | zero =>
    cases start with
    | none => rfl
    | some a =>
      show list.nodeAfter 0 (list.next a) = list.next a
      cases list.next a <;> rfl
  | succ i ih =>
    cases start with
    | none => rfl
    | some a => exact ih (list.next a)

theorem member_iff_nodeAfter {node : Nat} :
    list.Member node ↔ ∃ i, list.nodeAfter i list.head = some node := by
  constructor
  · intro hmember
    obtain ⟨index, hindex⟩ := hmember
    unfold nodeAt at hindex
    split at hindex
    · exact ⟨_, hindex⟩
    · cases hindex
  · intro hmember
    obtain ⟨i, hi⟩ := hmember
    exact ⟨i, by rw [nodeAt, if_pos (Int.natCast_nonneg i)]; exact hi⟩

theorem Member.next {a b : Nat} (ha : list.Member a) (hb : list.next a = some b) :
    list.Member b := by
  obtain ⟨i, hi⟩ := member_iff_nodeAfter.mp ha
  exact member_iff_nodeAfter.mpr ⟨i + 1, by rw [nodeAfter_succ, hi]; exact hb⟩

/-- A member is the head, or comes after a member. -/
theorem Member.head_or_next {b : Nat} (hb : list.Member b) :
    list.head = some b ∨ ∃ a, list.Member a ∧ list.next a = some b := by
  obtain ⟨i, hi⟩ := member_iff_nodeAfter.mp hb
  cases i with
  | zero =>
    cases hhead : list.head with
    | none => rw [hhead] at hi; cases hi
    | some a => rw [hhead] at hi; exact .inl hi
  | succ i =>
    rw [nodeAfter_succ] at hi
    obtain ⟨a, ha, hnext⟩ := Option.bind_eq_some_iff.mp hi
    exact .inr ⟨a, member_iff_nodeAfter.mpr ⟨i, ha⟩, hnext⟩

theorem WellFormed.congr {s t : LinkedList T} (h : WellFormed s nodes) (hhead : t.head = s.head)
    (htail : t.tail = s.tail)
    (hlinks : ∀ a ∈ nodes, t.next a = s.next a ∧ t.previous a = s.previous a) :
    WellFormed t nodes where
  forward := by
    rw [hhead]
    exact h.forward.congr fun a ha => (hlinks a ha).1
  head_previous := by
    intro a ha
    rw [hhead] at ha
    have hforward := h.forward
    rw [ha] at hforward
    rw [(hlinks a hforward.mem).2]
    exact h.head_previous a ha
  tail_next := by
    intro a ha
    rw [htail] at ha
    have hlast := h.tail_last
    rw [ha] at hlast
    rw [(hlinks a (List.mem_of_getLast? hlast.symm)).1]
    exact h.tail_next a ha
  inverse := by
    intro a ha b hb
    rw [(hlinks a ha).1, (hlinks b hb).2]
    exact h.inverse a ha b hb
  tail_last := htail.trans h.tail_last
  head_nil_iff := by
    rw [hhead, htail]
    exact h.head_nil_iff

/-- The list is what it was. -/
structure Keeps (s t : LinkedList T) : Prop where
  head : t.head = s.head
  tail : t.tail = s.tail
  nodeAt : ∀ index, t.nodeAt index = s.nodeAt index
  value : ∀ index node, s.nodeAt index = some node → t.value node = s.value node
  wellFormed : ∀ nodes, WellFormed t nodes ↔ WellFormed s nodes

/-- A list whose head, tail and links of members are what they were is what it was. -/
theorem Keeps.of_links {s t : LinkedList T} (hhead : t.head = s.head) (htail : t.tail = s.tail)
    (hvalue : ∀ a, t.value a = s.value a)
    (hlinks : ∀ a, s.Member a → t.next a = s.next a ∧ t.previous a = s.previous a) :
    Keeps s t := by
  have hafter : ∀ i, t.nodeAfter i s.head = s.nodeAfter i s.head := by
    intro i
    induction i with
    | zero => cases s.head <;> rfl
    | succ i ih =>
      rw [nodeAfter_succ, nodeAfter_succ, ih]
      cases ha : s.nodeAfter i s.head with
      | none => rfl
      | some a => exact (hlinks a (member_iff_nodeAfter.mpr ⟨i, ha⟩)).1
  have hnodeAt : ∀ index, t.nodeAt index = s.nodeAt index := by
    intro index
    rw [LinkedList.nodeAt, LinkedList.nodeAt, hhead, hafter]
  refine ⟨hhead, htail, hnodeAt, fun _ a _ => hvalue a, ?_⟩
  intro nodes
  constructor
  · intro h
    refine h.congr hhead.symm htail.symm fun a ha => ?_
    obtain ⟨index, hindex⟩ := (member_iff h.forward).mpr ha
    obtain ⟨hnext, hprevious⟩ := hlinks a ⟨index, by rw [← hnodeAt]; exact hindex⟩
    exact ⟨hnext.symm, hprevious.symm⟩
  · intro h
    exact h.congr hhead htail fun a ha => hlinks a ((member_iff h.forward).mpr ha)

/-- Unlinking this node moves neither end of the list. -/
def Harmless (list : LinkedList T) (node : Nat) : Prop :=
  ((list.previous node).isSome ∧ (list.next node).isSome) ∨
    (list.previous node = none ∧ list.next node = none ∧ list.head = none ∧ list.tail = none)

theorem Harmless.head {node : Nat} (h : list.Harmless node) :
    (list.remove node).1.head = list.head := by
  rw [head_remove]
  rcases h with ⟨hp, -⟩ | ⟨hp, hn, hhead, -⟩
  · rw [if_neg (Option.isSome_iff_ne_none.mp hp)]
  · rw [if_pos hp, hn, hhead]

theorem Harmless.tail {node : Nat} (h : list.Harmless node) :
    (list.remove node).1.tail = list.tail := by
  rw [tail_remove]
  rcases h with ⟨-, hn⟩ | ⟨hp, hn, -, htail⟩
  · rw [if_neg (Option.isSome_iff_ne_none.mp hn)]
  · rw [if_pos hn, hp, htail]

/-- What `remove` writes to the neighbours of a node that is no member is not written to members. -/
theorem Linked.member_links {node a : Nat} (h : Linked list) (hstale : list.Stale node)
    (ha : list.Member a) : (list.remove node).1.next a = list.next a ∧
      (list.remove node).1.previous a = list.previous a := by
  have hne : a ≠ node := by
    rintro rfl
    exact hstale.2 ha
  have hp : list.previous node ≠ some a := fun hp =>
    hstale.2 (ha.next ((h.next_iff a node).mpr hp))
  have hn : list.next node ≠ some a := by
    intro hn
    rcases ha.head_or_next with hhead | ⟨b, hb, hnext⟩
    · have hfirst := h.head_previous a hhead
      rw [(h.next_iff node a).mp hn] at hfirst
      cases hfirst
    · rw [h.next_iff, (h.next_iff node a).mp hn] at hnext
      exact hstale.2 (Option.some.inj hnext ▸ hb)
  exact ⟨by rw [next_remove a hstale.1, if_neg hne, if_neg hp],
    by rw [previous_remove a (h.next_alive node) hstale.1, if_neg hne, if_neg hn]⟩

theorem Linked.keeps_iff {node : Nat} (h : Linked list) (hstale : list.Stale node) :
    Keeps list (list.remove node).1 ↔ list.Harmless node := by
  constructor
  · intro hkeeps
    have hhead := hkeeps.head
    have htail := hkeeps.tail
    rw [head_remove] at hhead
    rw [tail_remove] at htail
    cases hp : list.previous node with
    | none =>
      rw [if_pos hp] at hhead
      cases hn : list.next node with
      | none =>
        rw [if_pos hn, hp] at htail
        rw [hn] at hhead
        exact .inr ⟨hp, hn, hhead.symm, htail.symm⟩
      | some n =>
        -- The head moves to a node that something comes before.
        rw [hn] at hhead
        have hfirst := h.head_previous n hhead.symm
        rw [(h.next_iff node n).mp hn] at hfirst
        cases hfirst
    | some p =>
      cases hn : list.next node with
      | none =>
        -- The tail moves to one that something comes after.
        rw [if_pos hn, hp] at htail
        have hlast := h.tail_next p htail.symm
        rw [(h.next_iff p node).mpr hp] at hlast
        cases hlast
      | some n => exact .inl ⟨by rw [hp]; rfl, by rw [hn]; rfl⟩
  · intro hharmless
    exact .of_links hharmless.head hharmless.tail (fun a => value_remove list node a)
      fun a ha => h.member_links hstale ha

theorem Linked.run {events : List (Event T)} (hr : Runs LinkedList.step {} events list) :
    Linked list := by
  refine hr.invariant (I := Linked) (G := fun _ _ => True) ?_ .empty ?_
  · intro s e t hs _ ht
    exact hs.step ht
  · exact Guarded.of_forall fun _ _ _ => trivial

/-- **`remove` of a node that is no member keeps the list exactly when it is harmless**, in every
    list that any operations lead to. Nothing is asked of what was removed before: earlier
    removals may have done harm, so that head and tail are ends of different chains, or only one
    of them is there. -/
theorem remove_stale_keeps_iff {events : List (Event T)}
    (hrun : Runs LinkedList.step {} events list) {node : Nat} (hstale : list.Stale node) :
    Keeps list (list.remove node).1 ↔ list.Harmless node :=
  (Linked.run hrun).keeps_iff hstale

/-- The last node of a list that was emptied, removed, leaves a tail without a head, which it then
    takes away; the node in the middle could be removed without harm. -/
theorem remove_stale_keeps_iff_three : ∃ emptied headless : LinkedList Nat,
    (Keeps emptied (emptied.remove 1).1 ↔ emptied.Harmless 1) ∧ emptied.Harmless 1 ∧
      (Keeps headless (headless.remove 2).1 ↔ headless.Harmless 2) ∧ headless.isEmpty ∧
        ¬ headless.Harmless 2 := by
  have hemptied := @remove_stale_keeps_iff Nat _ [.append 7, .append 8, .append 9, .removeAll]
    (.cons rfl (.cons rfl (.cons rfl (.cons rfl (.nil _))))) 1
  have hheadless := @remove_stale_keeps_iff Nat _
    [.append 7, .append 8, .append 9, .removeAll, .remove 2]
    (.cons rfl (.cons rfl (.cons rfl (.cons rfl (.cons rfl (.nil _)))))) 2
  have hnone : ∀ (list : LinkedList Nat) node, list.head = none → ¬ list.Member node := by
    intro list node hhead hmember
    have hforward : Forward list.next list.head [] := by
      rw [hhead]
      exact .nil
    cases (member_iff hforward).mp hmember
  exact ⟨_, _, hemptied ⟨rfl, hnone _ _ rfl⟩, by unfold Harmless; decide,
    hheadless ⟨rfl, hnone _ _ rfl⟩, rfl, by unfold Harmless; decide⟩

/-- A node removed a second time takes the rest of the list with it. -/
theorem remove_twice_empties :
    ¬ ∀ (events : List (Event Nat)) (list : LinkedList Nat) (node : Nat),
      Runs LinkedList.step {} events list → list.Stale node →
        Keeps list (list.remove node).1 := by
  intro h
  have hkeeps := h [.append 7, .append 8, .remove 0] _ 0
    (.cons rfl (.cons rfl (.cons rfl (.nil _)))) ⟨rfl, fun hmember => ?_⟩
  · exact absurd hkeeps.head (by decide)
  · have hmem : 0 ∈ [1] := (member_iff (.cons .nil)).mp hmember
    simp at hmem

end LinkedList
end KBucket
