import KBucket.Lib.FormUrl
import KBucket.Utils.StringUtils

/-!
# What a POST body carries

The request declares `application/x-www-form-urlencoded` and its body is written without any
encoding. In bytes it is the library's `body`, so the library says what the server reads out of
it: the parameters that were put in, exactly when none of them contains a character that the
format gives a meaning to.

Parameters are compared up to order, as the dictionary has none. What the server makes of the
parameters is not modelled. Text becomes bytes as UTF-8, which matters for the count: a character
outside of ASCII needs no encoding here, and the decoder leaves its bytes alone.
-/

namespace KBucket
namespace StringUtils

open Lib Lib.FormUrl

/-- A parameter as the request's bytes spell it. -/
def bytes (p : String × String) : Bytes × Bytes := (utf8 p.1, utf8 p.2)

/-- The text of a body: its parameters as they are, and a `&` after each. -/
def postText (rows : List (String × String)) : String :=
  rows.foldl (fun sb p => sb ++ (p.1 ++ "=" ++ p.2 ++ "&")) ""

/-- The loop, over parameters that are in the dictionary. -/
theorem foldlM_rows {sendData : Dictionary} (l : List (String × String))
    (hl : ∀ p ∈ l, p ∈ sendData.rows) (sb : String) :
    (l.map Prod.fst).foldlM (fun sb key => do
        let value ← unwrap (Dictionary.get? sendData key)
        return sb ++ (key ++ "=" ++ value ++ "&")) sb
      = (.ok (l.foldl (fun sb p => sb ++ (p.1 ++ "=" ++ p.2 ++ "&")) sb) : Except Trap String) := by
  induction l generalizing sb with
  | nil => rfl
  | cons p ps ih =>
    obtain ⟨hp, hps⟩ := List.forall_mem_cons.mp hl
    rw [List.map_cons, List.foldlM_cons, Dictionary.get?_of_mem hp]
    exact ih hps (sb ++ (p.1 ++ "=" ++ p.2 ++ "&"))

theorem getHTTPPostSendData_eq (sendData : Dictionary) :
    getHTTPPostSendData sendData = .ok (postText sendData.rows) :=
  foldlM_rows sendData.rows (fun _ hp => hp) ""

theorem utf8_foldl (l : List (String × String)) (sb : String) :
    utf8 (l.foldl (fun sb p => sb ++ (p.1 ++ "=" ++ p.2 ++ "&")) sb)
      = utf8 sb ++ body (l.map bytes) := by
  induction l generalizing sb with
  | nil => simp [body]
  | cons p ps ih =>
    have hequals : utf8 "=" = [equals] := by decide
    have hampersand : utf8 "&" = [ampersand] := by decide
    rw [List.foldl_cons, ih]
    simp [body, raw, bytes, hequals, hampersand]

/-- The request's bytes are the parameters in the dictionary's order, written without encoding. -/
theorem getHTTPPostSendData_bytes (sendData : Dictionary) :
    ∃ data, getHTTPPostSendData sendData = .ok data ∧
      utf8 data = body (sendData.rows.map bytes) :=
  ⟨_, getHTTPPostSendData_eq sendData, utf8_foldl sendData.rows ""⟩

/-- What the server decodes is the dictionary, with its parameters in some order. -/
def Carries (sendData : Dictionary) : Prop :=
  ∃ data, getHTTPPostSendData sendData = .ok data ∧
    (decodeForm (utf8 data)).Perm (sendData.rows.map bytes)

/-- **A POST body carries its dictionary exactly when no name and no value of it needs
    encoding.**

    The order of the parameters is that of the dictionary and plays no part: what is decoded is
    compared up to order. -/
theorem carries_iff (sendData : Dictionary) :
    Carries sendData ↔ ∀ p ∈ sendData.rows, Neutral (bytes p) := by
  obtain ⟨data, hdata, hbytes⟩ := getHTTPPostSendData_bytes sendData
  have hcarries : Carries sendData ↔
      (decodeForm (body (sendData.rows.map bytes))).Perm (sendData.rows.map bytes) := by
    rw [← hbytes]
    constructor
    · intro h
      obtain ⟨data', hdata', hperm⟩ := h
      rw [hdata] at hdata'
      cases hdata'
      exact hperm
    · intro hperm
      exact ⟨data, hdata, hperm⟩
  rw [hcarries, decodeForm_body_perm_iff, List.forall_mem_map]

/-- The comment `hi&BUCKET_NO=7` on the bucket 3, as the detail screen of a shared bucket sends
    it. -/
def commentOnThree : Dictionary where
  rows := [("NICKNAME", "kiki"), ("CONTENT", "hi&BUCKET_NO=7"), ("BUCKET_NO", "3")]
  nodup := by decide

/-- The server reads a comment `hi`, and the bucket 7 before the bucket 3. -/
theorem comment_changes_bucket :
    (¬ ∀ sendData, Carries sendData) ∧
    ∃ data, getHTTPPostSendData commentOnThree = .ok data ∧
      decodeForm (utf8 data) = [("NICKNAME", "kiki"), ("CONTENT", "hi"), ("BUCKET_NO", "7"),
        ("BUCKET_NO", "3")].map bytes := by
  have hdata : getHTTPPostSendData commentOnThree
      = .ok "NICKNAME=kiki&CONTENT=hi&BUCKET_NO=7&BUCKET_NO=3&" := by decide
  have hread : decodeForm (utf8 "NICKNAME=kiki&CONTENT=hi&BUCKET_NO=7&BUCKET_NO=3&")
      = [("NICKNAME", "kiki"), ("CONTENT", "hi"), ("BUCKET_NO", "7"), ("BUCKET_NO", "3")].map bytes
      := by decide
  refine ⟨fun h => ?_, _, hdata, hread⟩
  obtain ⟨data, hdata', hperm⟩ := h commentOnThree
  rw [hdata] at hdata'
  cases hdata'
  rw [hread] at hperm
  exact absurd hperm.length_eq (by decide)

end StringUtils
end KBucket
