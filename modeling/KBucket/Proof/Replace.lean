import KBucket.Lib.Run
import KBucket.Proof.Answer

/-!
# A list answer replaces the list

The four screens clear their list and append what the answer carries. Two of them clear it only
for an answer with items, so the list of an earlier answer outlives one without.

The runs are over responses of any kind, so an answer to something else may come in between. For
the two screens that can keep an old list the condition (`EmptyToEmpty`) is on the list before
each answer. Answers that end the process are none that a list could be compared with, and are
left to `Proof.Answer`.
-/

namespace KBucket

open Lib Json

/-- A response as it is delivered to a screen. -/
structure Response where
  type : Int
  actionId : Int
  data : Option Json

/-- A valid, well-formed answer to the action, and its items. -/
def Response.Carries [Platform] (r : Response) (id : Int) (key : String) (schema : Schema)
    (items : List Json) : Prop :=
  r.type = ConstHTTP.HTTP_OK ∧ r.actionId = id ∧
    ∃ fields, r.data = some (.obj fields) ∧ SaysValid fields ∧
      fields.lookup key = some (.arr items) ∧ ∀ item ∈ items, item.matchesSchema schema

/-- The text under the key. -/
def HoldsString (fields : List (String × Json)) (key text : String) : Prop :=
  fields.lookup key = some (.str text)

/-- The number under the key; a truth value counts as one. -/
def HoldsInt (fields : List (String × Json)) (key : String) (i : Int) : Prop :=
  fields.lookup key = some (.int i) ∨
    ∃ value, fields.lookup key = some (.bool value) ∧ i = if value then 1 else 0

/-- Right after a list answer the screen shows its items, each by its fields and in their order. -/
def Replaces [Platform] {σ α : Type} (id : Int) (key : String) (schema : Schema)
    (shows : Json → α → Prop)
    (displayed : σ → List α) (_ : σ) (r : Response) (o : Except Trap σ) : Prop :=
  ∀ items, r.Carries id key schema items →
    ∃ t, o = .ok t ∧ List.Forall₂ shows items (displayed t)

/-- An answer without items comes to an empty list. -/
def EmptyToEmpty [Platform] {σ α : Type} (id : Int) (key : String) (schema : Schema)
    (displayed : σ → List α) (v : σ) (r : Response) : Prop :=
  r.Carries id key schema [] → displayed v = []

/-! ## Reading an item -/

theorem asString_eq_ok {json : Option Json} {text : String} (h : asString json = .ok text) :
    json = some (.str text) := by
  unfold asString at h
  split at h
  · cases h; rfl
  · cases h

theorem asInt_holds [Platform] {fields : List (String × Json)} {key : String} {i : Int}
    (h : asInt (fields.lookup key) = .ok i) : HoldsInt fields key i := by
  unfold asInt at h
  split at h
  · next value hvalue =>
    split at h
    · cases h; exact Or.inl hvalue
    · cases h
  · next value hvalue => cases h; exact Or.inr ⟨value, hvalue, rfl⟩
  · cases h

theorem asObject_eq_ok {item : Json} {fields : List (String × Json)}
    (h : asObject (some item) = .ok fields) : item = .obj fields := by
  unfold asObject at h
  split at h
  · next heq => cases h; exact Option.some.inj heq
  · cases h

/-- The items of an answer are read one for one. -/
theorem Response.Carries.read [Platform] {α : Type} {read : Json → Except Trap α}
    {shows : Json → α → Prop}
    {r : Response} {id : Int} {key : String} {schema : Schema} {items : List Json}
    (hread : ∀ item, Returns (read item) ↔ item.matchesSchema schema)
    (hshows : ∀ item x, read item = .ok x → shows item x) (h : r.Carries id key schema items) :
    ∃ xs, r.type = ConstHTTP.HTTP_OK ∧ r.actionId = id ∧ Lists key read r.data xs ∧
      List.Forall₂ shows items xs := by
  obtain ⟨htype, hid, fields, hdata, hsays, hlookup, hitems⟩ := h
  obtain ⟨xs, hxs⟩ := Returns.mapM_iff.mpr fun item hitem => (hread item).mpr (hitems item hitem)
  refine ⟨xs, htype, hid, ⟨?_, fields, items, hdata, ?_, hxs⟩, ?_⟩
  · rw [hdata]
    exact isValid_eq_true.mpr hsays
  · rw [hlookup]
    rfl
  · exact (mapM_eq_ok.mp hxs).imp hshows

/-- A screen that passes over an empty list replaces its own exactly from an empty one. -/
theorem replaces_iff_emptyToEmpty [Platform] {σ α : Type} {id : Int} {key : String}
    {schema : Schema}
    {read : Json → Except Trap α} {shows : Json → α → Prop} {displayed : σ → List α} {v : σ}
    {r : Response} {o : Except Trap σ}
    (hread : ∀ item, Returns (read item) ↔ item.matchesSchema schema)
    (hshows : ∀ item x, read item = .ok x → shows item x)
    (hlisted : ∀ xs, r.type = ConstHTTP.HTTP_OK → r.actionId = id → Lists key read r.data xs →
      ∃ t, o = .ok t ∧ (xs = [] → displayed t = displayed v) ∧ (xs ≠ [] → displayed t = xs)) :
    Replaces id key schema shows displayed v r o ↔ EmptyToEmpty id key schema displayed v r := by
  constructor
  · intro h hcarries
    obtain ⟨xs, htype, hid, hlists, hxs⟩ := hcarries.read hread hshows
    obtain ⟨t, ht, hempty, -⟩ := hlisted xs htype hid hlists
    obtain ⟨t', ht', hitems⟩ := h [] hcarries
    rw [ht] at ht'
    cases ht'
    rw [List.forall₂_nil_left_iff] at hxs hitems
    rw [← hempty hxs, hitems]
  · intro h items hcarries
    obtain ⟨xs, htype, hid, hlists, hxs⟩ := hcarries.read hread hshows
    obtain ⟨t, ht, hempty, hfull⟩ := hlisted xs htype hid hlists
    refine ⟨t, ht, ?_⟩
    -- An empty list is passed over, and the screen shows what it showed before.
    by_cases hnil : xs = []
    · subst hnil
      obtain rfl := List.forall₂_nil_right_iff.mp hxs
      rw [hempty rfl, h hcarries]
      exact .nil
    · rw [hfull hnil]
      exact hxs

namespace ShareListView

/-- The bucket has the fields of the item. -/
def Shows (item : Json) (bucket : Bucket) : Prop :=
  ∃ fields, item = .obj fields ∧ HoldsString fields "content" bucket.mContent ∧
    HoldsString fields "createDt" bucket.mDate ∧ HoldsString fields "phone" bucket.mPhone ∧
    HoldsInt fields "idx" bucket.mIdx ∧ HoldsString fields "imageUrl" bucket.mImageURl ∧
    HoldsString fields "nickName" bucket.mNickName ∧
    HoldsInt fields "categoryCode" bucket.mCategoryCode ∧
    HoldsString fields "createDt" bucket.mCompleteDate

theorem shows_of_bucket [Platform] (item : Json) (b : Bucket) (h : bucket item = .ok b) :
    Shows item b := by
  obtain ⟨fields, hfields, h⟩ := bind_eq_ok.mp h
  obtain ⟨mContent, hcontent, h⟩ := bind_eq_ok.mp h
  obtain ⟨mDate, hdate, h⟩ := bind_eq_ok.mp h
  obtain ⟨mPhone, hphone, h⟩ := bind_eq_ok.mp h
  obtain ⟨mIdx, hidx, h⟩ := bind_eq_ok.mp h
  obtain ⟨mImageURl, himage, h⟩ := bind_eq_ok.mp h
  obtain ⟨mNickName, hname, h⟩ := bind_eq_ok.mp h
  obtain ⟨mCategoryCode, hcode, h⟩ := bind_eq_ok.mp h
  obtain ⟨mCompleteDate, hcomplete, h⟩ := bind_eq_ok.mp h
  cases h
  exact ⟨fields, asObject_eq_ok hfields, asString_eq_ok hcontent, asString_eq_ok hdate,
    asString_eq_ok hphone, asInt_holds hidx, asString_eq_ok himage, asString_eq_ok hname,
    asInt_holds hcode, asString_eq_ok hcomplete⟩

def respond [Platform] (v : ShareListView) (r : Response) : Except Trap ShareListView :=
  v.onHttpReceive r.type r.actionId r.data

theorem respond_replaces [Platform] (v : ShareListView) (r : Response) :
    Replaces ConstHTTP.BUCKET_LIST "bucketList" bucketSchema Shows mBucketDataList v r
      (v.respond r) := by
  intro items h
  obtain ⟨buckets, htype, hid, hlists, hshows⟩ := h.read returns_bucket shows_of_bucket
  refine ⟨v.listed buckets, ?_, hshows⟩
  rw [respond, htype, hid]
  exact onHttpReceive_listed hlists

end ShareListView

namespace ShareDetailView

/-- The comment has the fields of the item. -/
def Shows (item : Json) (comment : Comment) : Prop :=
  ∃ fields, item = .obj fields ∧ HoldsString fields "nickName" comment.mNickName ∧
    HoldsString fields "createDt" comment.mDate ∧ HoldsString fields "content" comment.mContent ∧
    HoldsInt fields "idx" comment.mIdx ∧ HoldsInt fields "bucketNo" comment.mBucketNo

theorem shows_of_comment [Platform] (item : Json) (c : Comment) (h : comment item = .ok c) :
    Shows item c := by
  obtain ⟨fields, hfields, h⟩ := bind_eq_ok.mp h
  obtain ⟨mNickName, hname, h⟩ := bind_eq_ok.mp h
  obtain ⟨mDate, hdate, h⟩ := bind_eq_ok.mp h
  obtain ⟨mContent, hcontent, h⟩ := bind_eq_ok.mp h
  obtain ⟨mIdx, hidx, h⟩ := bind_eq_ok.mp h
  obtain ⟨mBucketNo, hno, h⟩ := bind_eq_ok.mp h
  cases h
  exact ⟨fields, asObject_eq_ok hfields, asString_eq_ok hname, asString_eq_ok hdate,
    asString_eq_ok hcontent, asInt_holds hidx, asInt_holds hno⟩

def respond [Platform] (v : ShareDetailView) (r : Response) : Except Trap ShareDetailView :=
  v.onHttpReceive r.type r.actionId r.data

theorem respond_replaces [Platform] (v : ShareDetailView) (r : Response) :
    Replaces ConstHTTP.COMMENT_LIST "CommentVOList" commentSchema Shows mCommentList v r
      (v.respond r) := by
  intro items h
  obtain ⟨comments, htype, hid, hlists, hshows⟩ := h.read returns_comment shows_of_comment
  refine ⟨v.listed comments, ?_, hshows⟩
  rw [respond, htype, hid]
  exact onHttpReceive_listed hlists

end ShareDetailView

namespace RankListView

/-- The bucket has the fields of the item. -/
def Shows (item : Json) (bucket : BucketRank) : Prop :=
  ∃ fields, item = .obj fields ∧ HoldsInt fields "categoryCode" bucket.mCategoryCode ∧
    HoldsString fields "content" bucket.mContent ∧ HoldsInt fields "idx" bucket.mIdx ∧
    HoldsInt fields "bestCnt" bucket.mBestCnt ∧ HoldsInt fields "goodCnt" bucket.mGoodCnt ∧
    HoldsInt fields "ssoCnt" bucket.mSoSoCnt ∧ HoldsInt fields "comment" bucket.mComment

theorem shows_of_bucketRank [Platform] (item : Json) (b : BucketRank)
    (h : bucketRank item = .ok b) : Shows item b := by
  obtain ⟨fields, hfields, h⟩ := bind_eq_ok.mp h
  obtain ⟨mCategoryCode, hcode, h⟩ := bind_eq_ok.mp h
  obtain ⟨mContent, hcontent, h⟩ := bind_eq_ok.mp h
  obtain ⟨mIdx, hidx, h⟩ := bind_eq_ok.mp h
  obtain ⟨mBestCnt, hbest, h⟩ := bind_eq_ok.mp h
  obtain ⟨mGoodCnt, hgood, h⟩ := bind_eq_ok.mp h
  obtain ⟨mSoSoCnt, hsoso, h⟩ := bind_eq_ok.mp h
  obtain ⟨mComment, hcomment, h⟩ := bind_eq_ok.mp h
  cases h
  exact ⟨fields, asObject_eq_ok hfields, asInt_holds hcode, asString_eq_ok hcontent,
    asInt_holds hidx, asInt_holds hbest, asInt_holds hgood, asInt_holds hsoso,
    asInt_holds hcomment⟩

def respond [Platform] (v : RankListView) (r : Response) : Except Trap RankListView :=
  v.onHttpReceive r.type r.actionId r.data

theorem respond_replaces_iff [Platform] (v : RankListView) (r : Response) :
    Replaces ConstHTTP.RANK_LIST "bucketList" rankSchema Shows mBucketDataList v r (v.respond r) ↔
      EmptyToEmpty ConstHTTP.RANK_LIST "bucketList" rankSchema mBucketDataList v r := by
  refine replaces_iff_emptyToEmpty returns_bucketRank shows_of_bucketRank ?_
  intro buckets htype hid hlists
  refine ⟨v.listed buckets, ?_, ?_, ?_⟩
  · rw [respond, htype, hid]
    exact onHttpReceive_listed hlists
  · intro hnil
    simp [listed, hnil]
  · intro hne
    simp [listed, hne]

end RankListView

namespace NoticeView

/-- The notice has the fields of the item. -/
def Shows (item : Json) (update : UpdateApp) : Prop :=
  ∃ fields, item = .obj fields ∧ HoldsInt fields "versionCode" update.mVersionCode ∧
    HoldsString fields "updateContent" update.mContent

theorem shows_of_updateApp [Platform] (item : Json) (u : UpdateApp) (h : updateApp item = .ok u) :
    Shows item u := by
  obtain ⟨fields, hfields, h⟩ := bind_eq_ok.mp h
  obtain ⟨mVersionCode, hcode, h⟩ := bind_eq_ok.mp h
  obtain ⟨mContent, hcontent, h⟩ := bind_eq_ok.mp h
  cases h
  exact ⟨fields, asObject_eq_ok hfields, asInt_holds hcode, asString_eq_ok hcontent⟩

def respond [Platform] (v : NoticeView) (r : Response) : Except Trap NoticeView :=
  v.onHttpReceive r.type r.actionId r.data

theorem respond_replaces_iff [Platform] (v : NoticeView) (r : Response) :
    Replaces ConstHTTP.NOTICE_LIST "updateVOList" updateSchema Shows mList v r (v.respond r) ↔
      EmptyToEmpty ConstHTTP.NOTICE_LIST "updateVOList" updateSchema mList v r := by
  refine replaces_iff_emptyToEmpty returns_updateApp shows_of_updateApp ?_
  intro updates htype hid hlists
  refine ⟨v.listed updates, ?_, ?_, ?_⟩
  · rw [respond, htype, hid]
    exact onHttpReceive_listed hlists
  · intro hnil
    rw [listed_mList, if_pos hnil]
  · intro hne
    rw [listed_mList, if_neg hne]

end NoticeView

/-- **After every list answer the list is the answer's**, on the two screens with shared buckets
    whatever comes; on the ranking and the notices exactly as long as answers without items come
    to an empty list.

    Answers that are no list answers, and those that end the process, are among the responses. They
    replace nothing and break nothing here. -/
theorem lists_replaced_iff [Platform] (responses : List Response) :
    (∀ v : ShareListView, EachStep ShareListView.respond
      (Replaces ConstHTTP.BUCKET_LIST "bucketList" ShareListView.bucketSchema ShareListView.Shows
        ShareListView.mBucketDataList) v responses) ∧
    (∀ v : ShareDetailView, EachStep ShareDetailView.respond
      (Replaces ConstHTTP.COMMENT_LIST "CommentVOList" ShareDetailView.commentSchema
        ShareDetailView.Shows ShareDetailView.mCommentList) v responses) ∧
    (∀ v : RankListView,
      EachStep RankListView.respond
        (Replaces ConstHTTP.RANK_LIST "bucketList" RankListView.rankSchema RankListView.Shows
          RankListView.mBucketDataList) v responses ↔
      Guarded RankListView.respond
        (EmptyToEmpty ConstHTTP.RANK_LIST "bucketList" RankListView.rankSchema
          RankListView.mBucketDataList) v responses) ∧
    ∀ v : NoticeView,
      EachStep NoticeView.respond
        (Replaces ConstHTTP.NOTICE_LIST "updateVOList" NoticeView.updateSchema NoticeView.Shows
          NoticeView.mList) v responses ↔
      Guarded NoticeView.respond
        (EmptyToEmpty ConstHTTP.NOTICE_LIST "updateVOList" NoticeView.updateSchema
          NoticeView.mList) v responses := by
  refine ⟨?_, ?_, ?_, ?_⟩
  · intro v
    exact EachStep.of_forall ShareListView.respond_replaces v responses
  · intro v
    exact EachStep.of_forall ShareDetailView.respond_replaces v responses
  · intro v
    exact EachStep.congr_of_forall RankListView.respond_replaces_iff v responses
  · intro v
    exact EachStep.congr_of_forall NoticeView.respond_replaces_iff v responses

/-- An answer without items. -/
def noneRanked : Json := .obj [("isValid", .bool true), ("bucketList", .arr [])]

/-- The one bucket of the first answer is still shown after an answer without any. -/
theorem ranking_left_over :
    ¬ ∀ (v : RankListView) (responses : List Response), EachStep RankListView.respond
      (Replaces ConstHTTP.RANK_LIST "bucketList" RankListView.rankSchema RankListView.Shows
        RankListView.mBucketDataList) v responses := by
  intro h
  -- The second step is where the lists part.
  have hrun := h { defaults := fun _ => none }
    [⟨ConstHTTP.HTTP_OK, ConstHTTP.RANK_LIST, some RankListView.oneRanked⟩,
      ⟨ConstHTTP.HTTP_OK, ConstHTTP.RANK_LIST, some noneRanked⟩]
  obtain ⟨t, ht, hitems⟩ := (hrun.2 _ rfl).1 []
    ⟨rfl, rfl, _, rfl, Or.inl rfl, rfl, fun item hitem => by cases hitem⟩
  cases ht
  cases hitems

end KBucket
