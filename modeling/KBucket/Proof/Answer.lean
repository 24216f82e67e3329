import KBucket.Proof.CommentList
import KBucket.Proof.NoticeList
import KBucket.Proof.RankList
import KBucket.Proof.ShareList
import KBucket.Schema

/-!
# Answers that end the process

`do`/`catch` covers the parser, and no cast. So an answer ends the process exactly when one of
the casts that its handler comes to fails, and what those are the handler's schemas say. An answer
that is survived is taken as a whole or leaves the list as it was.

The schemas are the specification here (`Schema`): they name a field and a type for each cast, and
an answer that matches them is `Readable` whatever else it carries. The width of an `Int` is one of
the things that a number has to meet there, and it is that of the platform.
-/

namespace KBucket

open Json

/-- The process goes on, and shows the old list unless the answer is well formed. -/
def Survives [Platform] {σ α : Type} (listing : Listing) (actionId : Int) (data : Option Json)
    (displayed : σ → List α) (v : σ) (outcome : Except Trap σ) : Prop :=
  ∃ t, outcome = .ok t ∧ (¬ WellFormed listing actionId data → displayed t = displayed v)

theorem survives_iff [Platform] {σ α : Type} {listing : Listing} {type actionId : Int}
    {data : Option Json} {displayed : σ → List α} {v : σ} {outcome : Except Trap σ}
    (hreturns : Returns outcome ↔ Readable listing type actionId data)
    (hkeeps : ∀ t, outcome = .ok t → ¬ WellFormed listing actionId data →
      displayed t = displayed v) :
    Survives listing actionId data displayed v outcome ↔ Readable listing type actionId data := by
  rw [← hreturns]
  constructor
  · intro h
    obtain ⟨t, ht, -⟩ := h
    exact ⟨t, ht⟩
  · intro h
    obtain ⟨t, ht⟩ := h
    exact ⟨t, ht, hkeeps t ht⟩

/-- A handler that casts `isValid` and no more. -/
theorem returns_iff_isValid {σ : Type} {data : Option Json} {outcome : Except Trap σ}
    (herror : ∀ e, isValid data = .error e → outcome = .error e)
    (hok : ∀ valid, isValid data = .ok valid → Returns outcome) :
    Returns outcome ↔ Returns (isValid data) := by
  cases hvalid : isValid data with
  | error e =>
    rw [herror e hvalid]
    simp
  | ok valid => exact iff_of_true (hok valid hvalid) (.ok valid)

/-- A handler that casts `isValid` of every answer, and of a valid list its array and its items. -/
theorem returns_iff_readable [Platform] {σ : Type} {listing : Listing} {type actionId : Int}
    {data : Option Json} {outcome : Except Trap σ}
    (hlist : ∀ fields key schema, type = ConstHTTP.HTTP_OK → data = some (.obj fields) →
      isValid data = .ok true → listing actionId = some (key, schema) →
      (Returns outcome ↔ HasItems key schema fields))
    (herror : ∀ e, isValid data = .error e → outcome = .error e)
    (hother : ∀ valid, isValid data = .ok valid →
      ¬ (type = ConstHTTP.HTTP_OK ∧ isValid data = .ok true ∧ listing actionId ≠ none) →
      Returns outcome) :
    Returns outcome ↔ Readable listing type actionId data := by
  by_cases hread : type = ConstHTTP.HTTP_OK ∧ isValid data = .ok true ∧ listing actionId ≠ none
  · obtain ⟨rfl, hvalid, hlisting⟩ := hread
    obtain ⟨fields, rfl⟩ := isValid_true hvalid
    obtain ⟨⟨key, schema⟩, hlisting⟩ := Option.ne_none_iff_exists'.mp hlisting
    rw [hlist fields key schema rfl rfl hvalid hlisting, readable_list hvalid hlisting]
  · rw [readable_other hread]
    exact returns_iff_isValid herror fun valid hvalid => hother valid hvalid hread

namespace ShareListView

variable {v t : ShareListView} {type actionId : Int} {data : Option Json}

def categorySchema : Schema := [("categoryCode", .int), ("categoryName", .string)]

def bucketSchema : Schema :=
  [("content", .string), ("createDt", .string), ("phone", .string), ("idx", .int),
    ("imageUrl", .string), ("nickName", .string), ("categoryCode", .int), ("createDt", .string)]

def listing (actionId : Int) : Option (String × Schema) :=
  if actionId = ConstHTTP.CATEGORY_LIST then some ("categoryVOList", categorySchema)
  else if actionId = ConstHTTP.BUCKET_LIST then some ("bucketList", bucketSchema)
  else none

theorem returns_category [Platform] (item : Json) :
    Returns (category item) ↔ item.matchesSchema categorySchema := by
  refine returns_object fun aObject => ?_
  refine returns_field Kind.returns_asInt fun code => ?_
  exact returns_field Kind.returns_asString fun name => returns_fields _

theorem returns_bucket [Platform] (item : Json) :
    Returns (bucket item) ↔ item.matchesSchema bucketSchema := by
  refine returns_object fun aObject => ?_
  refine returns_field Kind.returns_asString fun mContent => ?_
  refine returns_field Kind.returns_asString fun mDate => ?_
  refine returns_field Kind.returns_asString fun mPhone => ?_
  refine returns_field Kind.returns_asInt fun mIdx => ?_
  refine returns_field Kind.returns_asString fun mImageURl => ?_
  refine returns_field Kind.returns_asString fun mNickName => ?_
  refine returns_field Kind.returns_asInt fun mCategoryCode => ?_
  exact returns_field Kind.returns_asString fun mCompleteDate => returns_fields _

theorem onHttpReceive_error [Platform] (v : ShareListView) (type actionId : Int)
    (data : Option Json)
    (e : Trap) (h : isValid data = .error e) : v.onHttpReceive type actionId data = .error e := by
  unfold onHttpReceive
  rw [h]
  rfl

theorem onHttpReceive_returns_iff [Platform] :
    Returns (v.onHttpReceive type actionId data) ↔ Readable listing type actionId data := by
  refine returns_iff_readable ?_ (onHttpReceive_error v type actionId data) ?_
  · intro fields key schema htype hdata hvalid hlisting
    subst htype hdata
    unfold listing at hlisting
    split at hlisting
    · next hid =>
      cases hlisting
      rw [hid, onHttpReceive_category hvalid, returns_items returns_category]
    · split at hlisting
      · next hid =>
        cases hlisting
        rw [hid, onHttpReceive_list hvalid, returns_items returns_bucket]
      · cases hlisting
  · intro valid hvalid hread
    rcases onHttpReceive_cases v type actionId data with
      ⟨rfl, hid, fields, rfl, hvalid⟩ | heq | heq | ⟨e, herror, -⟩
    · refine absurd ⟨rfl, hvalid, ?_⟩ hread
      rcases hid with rfl | rfl <;> exact Option.some_ne_none _
    · exact ⟨_, heq⟩
    · exact ⟨_, heq⟩
    · rw [hvalid] at herror
      cases herror

theorem onHttpReceive_keeps [Platform] (h : v.onHttpReceive type actionId data = .ok t)
    (hnot : ¬ WellFormed listing actionId data) : t.mBucketDataList = v.mBucketDataList := by
  cases received h with
  | listed buckets htype hid hdata =>
    subst hid
    exact absurd (wellFormed_of_lists returns_bucket rfl hdata) hnot
  | categories list => rfl
  | failed => rfl
  | ignored => rfl

end ShareListView

namespace RankListView

variable {v t : RankListView} {type actionId : Int} {data : Option Json}

def rankSchema : Schema :=
  [("categoryCode", .int), ("content", .string), ("idx", .int), ("bestCnt", .int),
    ("goodCnt", .int), ("ssoCnt", .int), ("comment", .int)]

def listing (actionId : Int) : Option (String × Schema) :=
  if actionId = ConstHTTP.RANK_LIST then some ("bucketList", rankSchema) else none

theorem returns_bucketRank [Platform] (item : Json) :
    Returns (bucketRank item) ↔ item.matchesSchema rankSchema := by
  refine returns_object fun aObject => ?_
  refine returns_field Kind.returns_asInt fun mCategoryCode => ?_
  refine returns_field Kind.returns_asString fun mContent => ?_
  refine returns_field Kind.returns_asInt fun mIdx => ?_
  refine returns_field Kind.returns_asInt fun mBestCnt => ?_
  refine returns_field Kind.returns_asInt fun mGoodCnt => ?_
  refine returns_field Kind.returns_asInt fun mSoSoCnt => ?_
  exact returns_field Kind.returns_asInt fun mComment => returns_fields _

theorem onHttpReceive_error [Platform] (v : RankListView) (type actionId : Int) (data : Option Json)
    (e : Trap) (h : isValid data = .error e) : v.onHttpReceive type actionId data = .error e := by
  unfold onHttpReceive
  rw [h]
  rfl

theorem onHttpReceive_returns_iff [Platform] :
    Returns (v.onHttpReceive type actionId data) ↔ Readable listing type actionId data := by
  refine returns_iff_readable ?_ (onHttpReceive_error v type actionId data) ?_
  · intro fields key schema htype hdata hvalid hlisting
    subst htype hdata
    unfold listing at hlisting
    split at hlisting
    · next hid =>
      cases hlisting
      rw [hid, onHttpReceive_list hvalid, returns_items returns_bucketRank]
    · cases hlisting
  · intro valid hvalid hread
    -- The answer to a vote is read no further than its `isValid`.
    rcases onHttpReceive_cases v type actionId data with
      ⟨rfl, rfl, fields, rfl, hvalid⟩ | ⟨rfl, rfl, hvalid⟩ | heq | heq | ⟨e, herror, -⟩
    · exact absurd ⟨rfl, hvalid, Option.some_ne_none _⟩ hread
    · exact ⟨_, onHttpReceive_acknowledged hvalid⟩
    · exact ⟨_, heq⟩
    · exact ⟨_, heq⟩
    · rw [hvalid] at herror
      cases herror

theorem onHttpReceive_keeps [Platform] (h : v.onHttpReceive type actionId data = .ok t)
    (hnot : ¬ WellFormed listing actionId data) : t.mBucketDataList = v.mBucketDataList := by
  cases received h with
  | listed buckets htype hid hdata =>
    subst hid
    exact absurd (wellFormed_of_lists returns_bucketRank rfl hdata) hnot
  | acknowledged htype hid hdata =>
    -- The vote shows in its bucket, and its answer lists nothing that could be malformed.
    subst hid
    obtain ⟨fields, rfl⟩ := isValid_true hdata
    refine absurd ⟨fields, rfl, isValid_eq_true.mp hdata, fun key schema hlisting => ?_⟩ hnot
    cases hlisting
  | failed => rfl
  | ignored => rfl

end RankListView

namespace ShareDetailView

variable {v t : ShareDetailView} {type actionId : Int} {data : Option Json}

def commentSchema : Schema :=
  [("nickName", .string), ("createDt", .string), ("content", .string), ("idx", .int),
    ("bucketNo", .int)]

def listing (actionId : Int) : Option (String × Schema) :=
  if actionId = ConstHTTP.COMMENT_LIST then some ("CommentVOList", commentSchema) else none

theorem returns_comment [Platform] (item : Json) :
    Returns (comment item) ↔ item.matchesSchema commentSchema := by
  refine returns_object fun aObject => ?_
  refine returns_field Kind.returns_asString fun mNickName => ?_
  refine returns_field Kind.returns_asString fun mDate => ?_
  refine returns_field Kind.returns_asString fun mContent => ?_
  refine returns_field Kind.returns_asInt fun mIdx => ?_
  exact returns_field Kind.returns_asInt fun mBucketNo => returns_fields _

theorem onHttpReceive_error [Platform] (v : ShareDetailView) (type actionId : Int)
    (data : Option Json)
    (e : Trap) (h : isValid data = .error e) : v.onHttpReceive type actionId data = .error e := by
  unfold onHttpReceive
  rw [h]
  rfl

theorem onHttpReceive_returns_iff [Platform] :
    Returns (v.onHttpReceive type actionId data) ↔ Readable listing type actionId data := by
  refine returns_iff_readable ?_ (onHttpReceive_error v type actionId data) ?_
  · intro fields key schema htype hdata hvalid hlisting
    subst htype hdata
    unfold listing at hlisting
    split at hlisting
    · next hid =>
      cases hlisting
      rw [hid, onHttpReceive_list hvalid, returns_items returns_comment]
    · cases hlisting
  · intro valid hvalid hread
    rcases onHttpReceive_cases v type actionId data with
      ⟨rfl, rfl, fields, rfl, hvalid⟩ | ⟨-, t, ht, -⟩ | ⟨e, herror, -⟩
    · exact absurd ⟨rfl, hvalid, Option.some_ne_none _⟩ hread
    · exact ⟨t, ht⟩
    · rw [hvalid] at herror
      cases herror

theorem onHttpReceive_keeps [Platform] (h : v.onHttpReceive type actionId data = .ok t)
    (hnot : ¬ WellFormed listing actionId data) : t.mCommentList = v.mCommentList := by
  rcases onHttpReceive_cases v type actionId data with
    ⟨rfl, rfl, fields, rfl, hvalid⟩ | ⟨-, t', ht', hkeeps⟩ | ⟨e, -, heq⟩
  · refine absurd ⟨fields, rfl, isValid_eq_true.mp hvalid, fun key schema hlisting => ?_⟩ hnot
    cases hlisting
    rw [onHttpReceive_list hvalid] at h
    exact (returns_items returns_comment).mp ⟨t, h⟩
  · rw [ht'] at h
    cases h
    exact hkeeps
  · rw [heq] at h
    cases h

end ShareDetailView

namespace NoticeView

variable {v t : NoticeView} {type actionId : Int} {data : Option Json}

def updateSchema : Schema := [("versionCode", .int), ("updateContent", .string)]

def listing (actionId : Int) : Option (String × Schema) :=
  if actionId = ConstHTTP.NOTICE_LIST then some ("updateVOList", updateSchema) else none

theorem returns_updateApp [Platform] (item : Json) :
    Returns (updateApp item) ↔ item.matchesSchema updateSchema := by
  refine returns_object fun aObject => ?_
  refine returns_field Kind.returns_asInt fun mVersionCode => ?_
  exact returns_field Kind.returns_asString fun mContent => returns_fields _

theorem onHttpReceive_error [Platform] (v : NoticeView) (type actionId : Int) (data : Option Json)
    (e : Trap) (h : isValid data = .error e) : v.onHttpReceive type actionId data = .error e := by
  unfold onHttpReceive
  rw [h]
  rfl

theorem onHttpReceive_returns_iff [Platform] :
    Returns (v.onHttpReceive type actionId data) ↔ Readable listing type actionId data := by
  refine returns_iff_readable ?_ (onHttpReceive_error v type actionId data) ?_
  · intro fields key schema htype hdata hvalid hlisting
    subst htype hdata
    unfold listing at hlisting
    split at hlisting
    · next hid =>
      cases hlisting
      rw [hid, onHttpReceive_list hvalid, returns_items returns_updateApp]
    · cases hlisting
  · intro valid hvalid hread
    rcases onHttpReceive_cases v type actionId data with
      ⟨rfl, rfl, fields, rfl, hvalid⟩ | ⟨-, heq⟩ | ⟨e, herror, -⟩
    · exact absurd ⟨rfl, hvalid, Option.some_ne_none _⟩ hread
    · exact ⟨v, heq⟩
    · rw [hvalid] at herror
      cases herror

theorem onHttpReceive_keeps [Platform] (h : v.onHttpReceive type actionId data = .ok t)
    (hnot : ¬ WellFormed listing actionId data) : t.mList = v.mList := by
  rcases onHttpReceive_cases v type actionId data with
    ⟨rfl, rfl, fields, rfl, hvalid⟩ | ⟨-, heq⟩ | ⟨e, -, heq⟩
  · refine absurd ⟨fields, rfl, isValid_eq_true.mp hvalid, fun key schema hlisting => ?_⟩ hnot
    cases hlisting
    rw [onHttpReceive_list hvalid] at h
    exact (returns_items returns_updateApp).mp ⟨t, h⟩
  · rw [heq] at h
    cases h
    rfl
  · rw [heq] at h
    cases h

end NoticeView

/-- **An answer is survived exactly when it is readable**, by each of the four screens that show
    lists from the server.

    Nothing is asked of the screen: it may be in any state, and the body may be anything that a
    parser makes of a text, or nothing. -/
theorem answers_survived_iff [Platform] (type actionId : Int) (data : Option Json) :
    (∀ v : ShareListView,
      Survives ShareListView.listing actionId data ShareListView.mBucketDataList v
        (v.onHttpReceive type actionId data) ↔
      Readable ShareListView.listing type actionId data) ∧
    (∀ v : ShareDetailView,
      Survives ShareDetailView.listing actionId data ShareDetailView.mCommentList v
        (v.onHttpReceive type actionId data) ↔
      Readable ShareDetailView.listing type actionId data) ∧
    (∀ v : RankListView,
      Survives RankListView.listing actionId data RankListView.mBucketDataList v
        (v.onHttpReceive type actionId data) ↔
      Readable RankListView.listing type actionId data) ∧
    ∀ v : NoticeView,
      Survives NoticeView.listing actionId data NoticeView.mList v
        (v.onHttpReceive type actionId data) ↔
      Readable NoticeView.listing type actionId data := by
  refine ⟨?_, ?_, ?_, ?_⟩
  · intro v
    exact survives_iff ShareListView.onHttpReceive_returns_iff
      fun t => ShareListView.onHttpReceive_keeps
  · intro v
    exact survives_iff ShareDetailView.onHttpReceive_returns_iff
      fun t => ShareDetailView.onHttpReceive_keeps
  · intro v
    exact survives_iff RankListView.onHttpReceive_returns_iff
      fun t => RankListView.onHttpReceive_keeps
  · intro v
    exact survives_iff NoticeView.onHttpReceive_returns_iff
      fun t => NoticeView.onHttpReceive_keeps

/-- A server that answers with an error object ends the process. -/
theorem error_object_ends :
    ShareListView.onHttpReceive {} ConstHTTP.HTTP_FAIL ConstHTTP.BUCKET_LIST
      (some (.obj [("error", .str "busy")])) = .error .badCast := by
  rfl

end KBucket
