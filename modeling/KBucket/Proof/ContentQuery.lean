import KBucket.Utils.SQLQuery

/-!
# Selecting by content

What the four operations that select by content promise is one thing, `SelectsExactly`: each of
them acts on the bucket whose content is the given text, and on no other. A plain text keeps the
promise on every store. Any other text breaks it on some store, and the store is a single
bucket: the predicate either does not parse, or cannot tell a bucket with that very content from
one with a content nobody mentioned.

Plain means without a quote and without a backslash. That it takes no more than this is what the
library says of its lexer (`Lib.PredicateFormat`), so nothing has to be known here of how a text
that is not plain goes wrong. The converse is a statement about all stores on purpose: on a given
store even a text with a quote may happen to select what it should.
-/

namespace KBucket
namespace SQLQuery

open Lib

/-- The operations that take the content `c` select the buckets whose content is `c`. -/
structure SelectsExactly (realm : Realm) (c : String) : Prop where
  select : selectKbucketContents realm c = .ok (realm.rows.filter fun b => b.mContent == c)
  contains : containsKbucket realm c = .ok (decide (c ∈ realm.keys))
  update : ∀ newBucket, updateMemoContent realm newBucket c = Realm.add (realm.erase c) newBucket
  delete : deleteUserBucket realm c = .ok (true, realm.erase c)

theorem selectsExactly_of_plain (realm : Realm) {c : String} (hc : Predicate.Plain c) :
    SelectsExactly realm c where
  select := selectKbucketContents_plain hc
  contains := containsKbucket_plain hc
  update := fun newBucket => updateMemoContent_plain realm newBucket hc
  delete := deleteUserBucket_plain hc

/-! ## Probing with one bucket -/

/-- A bucket with a content of its own and one filler everywhere else. -/
def probe (content filler : String) : Bucket where
  mContent := content
  mCompleteYN := filler
  mCompleteDate := filler
  mNickName := filler
  mPhone := filler
  mImageURl := filler
  mDate := filler

/-- Every column of a probe is its content or its filler, and which one it is does not depend on
    the probe. -/
theorem column_probe {n : String} {col : Bucket → String} (h : Realm.column n = some col) :
    (∀ content filler, col (probe content filler) = content) ∨
      ∀ content filler, col (probe content filler) = filler := by
  unfold Realm.column at h
  split at h
  case h_8 => cases h
  all_goals cases h
  · exact .inl fun _ _ => rfl
  all_goals exact .inr fun _ _ => rfl

theorem avoids_probe {T : List String} {content filler : String} (hc : content ∉ T)
    (hf : filler ∉ T) : Predicate.Avoids Realm.column T (probe content filler) := by
  intro n col hcol
  rcases column_probe hcol with h | h
  · rw [h]; exact hc
  · rw [h]; exact hf

theorem sameShape_probe {content content' filler : String} (h : content ≠ filler)
    (h' : content' ≠ filler) :
    Predicate.SameShape Realm.column (probe content filler) (probe content' filler) := by
  intro m n col col' hm hn
  rcases column_probe hm with hm | hm <;> rcases column_probe hn with hn | hn
  · simp [hm, hn]
  · simp [hm, hn, h, h']
  · simp [hm, hn, h.symm, h'.symm]
  · simp [hm, hn]

/-- On the store of one bucket a selection shows the predicate's verdict on it. -/
theorem predicate_of_select {p : Bucket → Bool} {c : String} {b : Bucket}
    (hp : Predicate.predicate Realm.column ("mContent = '" ++ c ++ "'") = some p)
    (h : SelectsExactly (Table.singleton b) c) : p b = (b.mContent == c) := by
  have hsel := h.select
  rw [selectKbucketContents, Realm.filter, hp] at hsel
  have hsel' : [b].filter p = [b].filter fun b => b.mContent == c := Except.ok.inj hsel
  cases hpb : p b <;> cases hbc : b.mContent == c <;> simp [hpb, hbc] at hsel' ⊢

/-- **The contents that are selected exactly on every store are the plain ones.**

    Plain is a text without a quote and without a backslash: only these two end the literal that
    the content is written in, or change it. Of the stores nothing is asked; for every other
    content there is one, of a single bucket, that shows the difference. -/
theorem selectsExactly_iff_plain (c : String) :
    (∀ realm : Realm, SelectsExactly realm c) ↔ Predicate.Plain c := by
  refine ⟨fun h => ?_, fun hc realm => selectsExactly_of_plain realm hc⟩
  by_contra hc
  cases hp : Predicate.predicate Realm.column ("mContent = '" ++ c ++ "'") with
  | none =>
    -- The text does not parse: already the empty store raises.
    have hsel := (h Table.empty).select
    rw [selectKbucketContents, Realm.filter, hp] at hsel
    cases hsel
  | some p =>
    obtain ⟨T, hT, hsame⟩ :=
      Predicate.predicate_of_not_plain Realm.isKey_mContent hc (by rw [← format_eq]; exact hp)
    -- A filler and a second content that neither the predicate nor `c` mentions.
    obtain ⟨f, hf⟩ := Predicate.exists_fresh (c :: T)
    obtain ⟨g, hg⟩ := Predicate.exists_fresh (f :: c :: T)
    simp only [List.mem_cons, not_or] at hf hg
    have hpc : p (probe c f) = true := by
      rw [predicate_of_select hp (h _)]; simp [probe]
    have hpg : p (probe g f) = false := by
      rw [predicate_of_select hp (h _)]; simpa [probe] using hg.2.1
    have heq : p (probe c f) = p (probe g f) :=
      hsame _ _ (avoids_probe hT hf.2) (avoids_probe hg.2.2 hf.2)
        (sameShape_probe (Ne.symm hf.1) hg.1)
    rw [hpc, hpg] at heq
    cases heq

/-- An apostrophe ends the literal early and what is left does not parse; a text that goes on as
    a predicate of its own selects every bucket, and deleting by it empties the store. -/
theorem quoted_contents_not_selected :
    (¬ ∀ (realm : Realm) (c : String), SelectsExactly realm c) ∧
      containsKbucket Table.empty "it's" = .error .invalidPredicate ∧
      deleteUserBucket (Table.singleton { mContent := "Paris" }) "x' OR mContent != 'x"
        = .ok (true, Table.empty) := by
  have hraise : containsKbucket Table.empty "it's" = .error .invalidPredicate := by decide
  refine ⟨fun h => ?_, hraise, by decide⟩
  have hok := (h Table.empty "it's").contains
  rw [hraise] at hok
  cases hok

end SQLQuery
end KBucket
