import KBucket.Proof.RankList

/-!
# One vote for a bucket

The view decides from the list it holds whether a vote was cast. The list does not show a vote
that is on its way, nor any vote while it is empty, so what keeps a second vote from being sent
is only that the list happens to show the first.

What a server makes of votes is not used: answers are arbitrary, and the condition (`SeesVote`)
is on the list before each press. A row has to show what it votes for. That it does is an
invariant of the screen with its table (`Numbered`), in which the number on a cell reads back as
the number of the bucket.
-/

namespace KBucket

open Lib

namespace RankListView

/-- The request is a vote for the bucket with this number. -/
def VoteFor (idx : Int) (r : HttpRequest) : Prop :=
  ∃ defaults comment, r = vote defaults idx comment

theorem vote_idx {defaults defaults' : UserDefaults} {idx idx' comment comment' : Int}
    (h : vote defaults idx comment = vote defaults' idx' comment') : idx = idx' := by
  -- The number ends at the first ampersand, whatever the nickname.
  have hread : ∀ (defaults : UserDefaults) (idx comment : Int),
      ((vote defaults idx comment).data.toList.drop 4).takeWhile (· ≠ '&') =
        (toString idx).toList := by
    intro defaults idx comment
    have hdigits : ∀ c ∈ (toString idx).toList, decide (c ≠ '&') = true := by
      intro c hc
      rcases mem_toString_int hc with rfl | hdigit
      · decide
      · rw [decide_eq_true_eq]
        rintro rfl
        cases hdigit
    have hdata : (vote defaults idx comment).data.toList.drop 4 = (toString idx).toList ++
        '&' :: ("comment=" ++ toString comment ++ "&nickname=" ++
          UserDefault.read defaults ContextUtils.KEY_USER_NICKNAME).toList := by
      simp [vote]
    rw [hdata, List.takeWhile_append_of_pos hdigits]
    simp
  have heq := hread defaults idx comment
  rw [h, hread] at heq
  exact (toString_int_inj (String.toList_injective heq)).symm

theorem VoteFor.unique {i j : Int} {r : HttpRequest} (hi : VoteFor i r) (hj : VoteFor j r) :
    i = j := by
  obtain ⟨_, _, rfl⟩ := hi
  obtain ⟨_, _, h⟩ := hj
  exact vote_idx h

theorem getCommentCount_iff {v : RankListView} {idx : Int} :
    v.getCommentCount idx = true ↔ ∃ b ∈ v.mBucketDataList, b.mIdx = idx ∧ b.mComment ≠ 0 := by
  simp [getCommentCount]

theorem bucketRank_fits [Platform] {item : Json} {b : BucketRank} (h : bucketRank item = .ok b) :
    FitsInt b.mIdx := by
  obtain ⟨aObject, -, h⟩ := bind_eq_ok.mp h
  obtain ⟨mCategoryCode, -, h⟩ := bind_eq_ok.mp h
  obtain ⟨mContent, -, h⟩ := bind_eq_ok.mp h
  obtain ⟨mIdx, hidx, h⟩ := bind_eq_ok.mp h
  obtain ⟨mBestCnt, -, h⟩ := bind_eq_ok.mp h
  obtain ⟨mGoodCnt, -, h⟩ := bind_eq_ok.mp h
  obtain ⟨mSoSoCnt, -, h⟩ := bind_eq_ok.mp h
  obtain ⟨mComment, -, h⟩ := bind_eq_ok.mp h
  cases h
  exact Json.asInt_fits hidx

theorem Answers.fits [Platform] {data : Option Json} {buckets : List BucketRank}
    (h : Answers data buckets) : ∀ b ∈ buckets, FitsInt b.mIdx := by
  obtain ⟨-, fields, items, -, -, hbuckets⟩ := h
  exact forall_of_mapM (fun item b h => bucketRank_fits h) hbuckets

/-- What a press asks of the server: nothing if the list shows the vote, else to count it. -/
theorem pressed_requests (v : RankListView) (button : RankButton) (idx : Int) :
    (v.pressed button idx).requests =
      if v.getCommentCount idx = true then v.requests
      else v.requests ++ [vote v.defaults idx button.gbn] := by
  unfold pressed
  split <;> rfl

/-- An answer is never followed by a vote. -/
theorem Received.requests [Platform] {v t : RankListView} {type actionId : Int} {data : Option Json}
    (h : Received v type actionId data t) :
    t.requests = v.requests ∨
      ∃ r, r.id ≠ ConstHTTP.RANK_UPDATE_COMMENT ∧ t.requests = v.requests ++ [r] := by
  cases h with
  | listed buckets htype hid hdata => exact Or.inl rfl
  | acknowledged htype hid hdata => exact Or.inr ⟨_, (by decide : ConstHTTP.RANK_LIST ≠ _), rfl⟩
  | failed => exact Or.inl rfl
  | ignored => exact Or.inl rfl

end RankListView

namespace RankScreen

open RankListView

variable {s t : RankScreen}

/-- No two requests are votes for one bucket. -/
def OneVoteEach (s : RankScreen) : Prop :=
  s.view.requests.Pairwise fun r r' => ∀ idx, VoteFor idx r → ¬ VoteFor idx r'

/-- A vote that is sent by a step is the one for the bucket on the row that was pressed, with the
    choice that was pressed. -/
def SendsPressed (s : RankScreen) (e : Event) (t : RankScreen) : Prop :=
  ∀ r ∈ t.view.requests, r.id = ConstHTTP.RANK_UPDATE_COMMENT → r ∈ s.view.requests ∨
    ∃ row button cell bucket, e = .press row button ∧ s.table.shown row = some (cell, bucket) ∧
      r = vote s.view.defaults bucket.mIdx button.gbn

/-- What the step of an event, if it does not trap, must be like. -/
def Votes (s : RankScreen) (e : Event) (o : Except Trap RankScreen) : Prop :=
  ∀ t, o = .ok t → t.OneVoteEach ∧ SendsPressed s e t

/-- A bucket is pressed again after its vote was sent only while the list shows a comment on it. -/
def SeesVote (s : RankScreen) : Event → Prop
  | .press row _ => ∀ cell bucket, s.table.shown row = some (cell, bucket) →
      (∃ r ∈ s.view.requests, VoteFor bucket.mIdx r) →
        ∃ b ∈ s.view.mBucketDataList, b.mIdx = bucket.mIdx ∧ b.mComment ≠ 0
  | _ => True

/-- The numbers in the list and on the cells are `Int`s, and a cell carries its bucket's. -/
structure Numbered [Platform] (s : RankScreen) : Prop where
  fits : ∀ b ∈ s.view.mBucketDataList, FitsInt b.mIdx
  shown : ∀ row c, s.table.shown row = some c →
    c.1.mData = toString c.2.mIdx ∧ FitsInt c.2.mIdx

theorem step_press [Platform] (hn : s.Numbered) {row : Nat} {button : RankButton}
    {cell : RankCustomCell}
    {bucket : BucketRank} (hshown : s.table.shown row = some (cell, bucket)) :
    step s (.press row button) =
      .ok { s with view := s.view.pressed button bucket.mIdx } := by
  obtain ⟨hdata, hfits⟩ := hn.shown row _ hshown
  simp only at hdata
  simp only [step, hshown]
  rw [receiveEventFromViewItem_button, hdata, intOfString?_toString hfits]
  rfl

theorem numbered_step [Platform] {e : Event} (hn : s.Numbered) (h : step s e = .ok t) :
    t.Numbered := by
  cases e with
  | response type actionId data =>
    obtain ⟨view, hview, h⟩ := bind_eq_ok.mp h
    cases h
    refine ⟨?_, hn.shown⟩
    cases received hview with
    | listed buckets htype hid hdata =>
      show ∀ b ∈ (if buckets = [] then s.view.mBucketDataList else buckets), FitsInt b.mIdx
      split
      · exact hn.fits
      · exact Answers.fits hdata
    | acknowledged htype hid hdata => intro b hb; cases hb
    | failed => exact hn.fits
    | ignored => exact hn.fits
  | reload =>
    simp only [step] at h
    split at h
    · cases h
      exact ⟨hn.fits, fun row c hc => by cases hc⟩
    · cases h; exact hn
  | cell row =>
    by_cases hrow : row < s.table.rows
    · obtain ⟨cell, bucket, hmem, hdata, rfl⟩ := step_cell hrow h
      exact ⟨hn.fits, TableView.forall_shown_display hn.shown ⟨hdata, hn.fits bucket hmem⟩ hrow⟩
    · simp only [step, dif_neg hrow] at h
      cases h; exact hn
  | press row button =>
    cases hshown : s.table.shown row with
    | none =>
      simp only [step, hshown] at h
      cases h; exact hn
    | some c =>
      rw [step_press hn hshown] at h
      cases h
      refine ⟨?_, hn.shown⟩
      rw [pressed_mBucketDataList]
      exact hn.fits

/-- One more request keeps the votes apart when none before it votes for the same bucket. -/
theorem pairwise_append {rs : List HttpRequest} {r : HttpRequest}
    (hrs : rs.Pairwise fun r r' => ∀ idx, VoteFor idx r → ¬ VoteFor idx r')
    (hr : ∀ r' ∈ rs, ∀ idx, VoteFor idx r' → ¬ VoteFor idx r) :
    (rs ++ [r]).Pairwise fun r r' => ∀ idx, VoteFor idx r → ¬ VoteFor idx r' := by
  refine List.pairwise_append.mpr ⟨hrs, List.pairwise_singleton _ _, ?_⟩
  intro r' hr' r'' hr''
  rw [List.mem_singleton.mp hr'']
  exact hr r' hr'

/-- A step that sends no vote keeps the votes apart. -/
theorem votes_of_requests {e : Event} (hs : s.OneVoteEach)
    (h : t.view.requests = s.view.requests ∨
      ∃ r, r.id ≠ ConstHTTP.RANK_UPDATE_COMMENT ∧ t.view.requests = s.view.requests ++ [r]) :
    t.OneVoteEach ∧ SendsPressed s e t := by
  rcases h with heq | ⟨r, hid, heq⟩
  · refine ⟨?_, ?_⟩
    · rw [OneVoteEach, heq]
      exact hs
    · intro r' hr' _
      rw [heq] at hr'
      exact Or.inl hr'
  · refine ⟨?_, ?_⟩
    · rw [OneVoteEach, heq]
      apply pairwise_append hs
      rintro _ _ _ _ ⟨_, _, rfl⟩
      exact hid rfl
    · intro r' hr' hid'
      rw [heq] at hr'
      rcases List.mem_append.mp hr' with hr' | hr'
      · exact Or.inl hr'
      · rw [List.mem_singleton.mp hr'] at hid'
        exact absurd hid' hid

/-- A press that sends its vote keeps the votes apart exactly when it is the first for its
    bucket. -/
theorem votes_of_press {row : Nat} {button : RankButton} {cell : RankCustomCell}
    {bucket : BucketRank} (hs : s.OneVoteEach)
    (hshown : s.table.shown row = some (cell, bucket))
    (h : t.view.requests =
      s.view.requests ++ [vote s.view.defaults bucket.mIdx button.gbn]) :
    (t.OneVoteEach ∧ SendsPressed s (.press row button) t) ↔
      ∀ r ∈ s.view.requests, ¬ VoteFor bucket.mIdx r := by
  have hvote : VoteFor bucket.mIdx (vote s.view.defaults bucket.mIdx button.gbn) := ⟨_, _, rfl⟩
  constructor
  · rintro ⟨hone, -⟩ r hr hfor
    rw [OneVoteEach, h] at hone
    have hapart := (List.pairwise_append.mp hone).2.2 r hr _ (List.mem_singleton_self _)
    exact hapart _ hfor hvote
  · intro hfirst
    refine ⟨?_, ?_⟩
    · rw [OneVoteEach, h]
      apply pairwise_append hs
      intro r hr idx hfor hnew
      obtain rfl := hnew.unique hvote
      exact hfirst r hr hfor
    · intro r hr _
      rw [h] at hr
      rcases List.mem_append.mp hr with hr | hr
      · exact Or.inl hr
      · exact Or.inr ⟨row, button, cell, bucket, rfl, hshown, List.mem_singleton.mp hr⟩

/-- What a press needs to be allowed, on a row with a cell. -/
theorem seesVote_press {row : Nat} {button : RankButton} {cell : RankCustomCell}
    {bucket : BucketRank} (hshown : s.table.shown row = some (cell, bucket)) :
    s.SeesVote (.press row button) ↔
      ((∃ r ∈ s.view.requests, VoteFor bucket.mIdx r) →
        s.view.getCommentCount bucket.mIdx = true) := by
  rw [getCommentCount_iff]
  constructor
  · intro h
    exact h cell bucket hshown
  · intro h cell' bucket' hshown'
    rw [hshown] at hshown'
    cases hshown'
    exact h

/-- A press votes as it should exactly when the list shows a vote that was sent before. -/
theorem votes_press_iff [Platform] {row : Nat} {button : RankButton} {cell : RankCustomCell}
    {bucket : BucketRank} (hn : s.Numbered) (hs : s.OneVoteEach)
    (hshown : s.table.shown row = some (cell, bucket)) :
    s.Votes (.press row button) (step s (.press row button)) ↔
      s.SeesVote (.press row button) := by
  rw [step_press hn hshown, seesVote_press hshown]
  have hrequests := pressed_requests s.view button bucket.mIdx
  by_cases hcount : s.view.getCommentCount bucket.mIdx = true
  · refine iff_of_true (fun t h => ?_) (fun _ => hcount)
    cases h
    rw [if_pos hcount] at hrequests
    exact votes_of_requests hs (Or.inl hrequests)
  · rw [if_neg hcount] at hrequests
    have hpress := votes_of_press (t := { s with view := s.view.pressed button bucket.mIdx })
      hs hshown hrequests
    constructor
    · intro hvotes hsent
      obtain ⟨r, hr, hfor⟩ := hsent
      exact absurd hfor (hpress.mp (hvotes _ rfl) r hr)
    · intro hknown t h
      cases h
      apply hpress.mpr
      intro r hr hfor
      exact hcount (hknown ⟨r, hr, hfor⟩)

/-- Only a press can send a second vote. -/
theorem votes_iff [Platform] {e : Event} (hn : s.Numbered) (hs : s.OneVoteEach) :
    s.Votes e (step s e) ↔ s.SeesVote e := by
  cases e with
  | response type actionId data =>
    refine iff_of_true (fun t h => ?_) trivial
    obtain ⟨view, hview, h⟩ := bind_eq_ok.mp h
    cases h
    exact votes_of_requests hs (received hview).requests
  | reload =>
    refine iff_of_true (fun t h => ?_) trivial
    simp only [step] at h
    split at h
    · cases h; exact votes_of_requests hs (Or.inl rfl)
    · cases h; exact votes_of_requests hs (Or.inl rfl)
  | cell row =>
    refine iff_of_true (fun t h => ?_) trivial
    by_cases hrow : row < s.table.rows
    · obtain ⟨cell, bucket, -, -, rfl⟩ := step_cell hrow h
      exact votes_of_requests hs (Or.inl rfl)
    · simp only [step, dif_neg hrow] at h
      cases h; exact votes_of_requests hs (Or.inl rfl)
  | press row button =>
    cases hshown : s.table.shown row with
    | none =>
      refine iff_of_true (fun t h => ?_) (fun cell bucket h => ?_)
      · simp only [step, hshown] at h
        cases h; exact votes_of_requests hs (Or.inl rfl)
      · rw [hshown] at h; cases h
    | some c => exact votes_press_iff hn hs hshown

theorem numbered_load [Platform] (defaults : UserDefaults) (isConnect : Bool) :
    (load defaults isConnect).Numbered := by
  refine ⟨fun b hb => ?_, fun row c hc => ?_⟩
  · cases isConnect <;> cases hb
  · cases hc

theorem oneVoteEach_load (defaults : UserDefaults) (isConnect : Bool) :
    (load defaults isConnect).OneVoteEach := by
  cases isConnect with
  | false => exact List.Pairwise.nil
  | true => exact List.pairwise_singleton _ _

/-- **Throughout a run of presses and answers in any order each bucket is voted on once, with what
    was pressed, exactly when no bucket is pressed again after its vote was sent while the list
    does not show a comment on it.**

    The answers are arbitrary, so nothing is assumed of how a server counts votes. A press where
    the screen knows a vote sends nothing and breaks nothing. -/
theorem votes_once_iff [Platform] (defaults : UserDefaults) (isConnect : Bool) (es : List Event) :
    EachStep step Votes (load defaults isConnect) es ↔
      Guarded step SeesVote (load defaults isConnect) es := by
  apply EachStep.congr (I := fun s => s.Numbered ∧ s.OneVoteEach)
  · intro s e t hs hp ht
    exact ⟨numbered_step hs.1 ht, (hp t ht).1⟩
  · intro s e hs
    exact votes_iff hs.1 hs.2
  · exact ⟨numbered_load defaults isConnect, oneVoteEach_load defaults isConnect⟩

/-- Two presses on one row before any answer are two votes. -/
theorem pressed_twice :
    ∃ s, Runs step (load (fun _ => none) true)
      [.response ConstHTTP.HTTP_OK ConstHTTP.RANK_LIST (some oneRanked), .reload, .cell 0,
        .press 0 .btBest, .press 0 .btGood] s ∧
      s.view.requests.filter (fun r => r.id = ConstHTTP.RANK_UPDATE_COMMENT) =
        [vote (fun _ => none) 7 3, vote (fun _ => none) 7 2] :=
  ⟨_, .cons rfl (.cons rfl (.cons rfl (.cons rfl (.cons rfl (.nil _))))), rfl⟩

end RankScreen
end KBucket
