import Mathlib.Data.List.Sort
import Mathlib.Data.String.Basic
import StoryReview.Base64
import StoryReview.Cursors
import StoryReview.Datetimes
import StoryReview.OutputFenceLaws
import StoryReview.Scenarios
import StoryReview.SessionReads

/-!
# Paging through sessions

The cursor of a page is the key of its last row, `updated_at` and `session_id`, in
Base64. It decodes to what was encoded, so a client that follows the cursors sees every
row of the user once, in the order of the keys.
-/
namespace StoryReview
open Program Flows RecordsStore OutputFence

namespace SessionsApi

/-- Base64 of `f"{updated_at.isoformat()}|{session_id}"` without its padding. -/
def encodeCursor (updatedAt : Datetime) (sessionId : Text) : Text :=
  let raw := String.ofList (updatedAt.isoformat ++ '|' :: sessionId.toList)
  String.ofList (Base64.unpad (Base64.encode raw.toUTF8.data.toList))

/-- `none` for the `ValueError`s; `other` reads the datetimes that `isoformat` does not write. -/
def decodeCursor (other : List Char → Option Datetime) (cursor : Text) :
    Option (Datetime × Text) := do
  let bytes ← Base64.decode (Base64.repad cursor.toList)
  let decoded ← String.fromUTF8? ⟨bytes.toArray⟩
  let updatedAt := decoded.toList.takeWhile (· ≠ '|')
  let sessionId := (decoded.toList.dropWhile (· ≠ '|')).drop 1
  if updatedAt = [] ∨ sessionId = [] then none
  else do
    let moment ← Datetime.fromisoformat other updatedAt
    if moment.utcoffset = none then none else some (moment, String.ofList sessionId)

/-- `ShortText`. -/
def shortText (s : Text) : Option Text :=
  let stripped := stripWhitespace s.toList
  if stripped ≠ [] ∧ stripped.length ≤ 500 then some (String.ofList stripped) else none

/-- The order of texts is the database's, its timestamps come as UTC. -/
def keyset (sessionText : SessionId → Text) (le : Text → Text → Bool)
    (other : List Char → Option Datetime) : Keyset where
  sessionText := sessionText
  le := le
  encodeCursor time text := (Datetime.utc time).elim "" fun moment => encodeCursor moment text
  decodeCursor text := (decodeCursor other text).map fun (moment, sessionId) =>
    (moment.instant.toNat, sessionId)

/-- `GET /api/v1/sessions` with its `ListSessionsQuery`. -/
def listSessionsQuery (keyset : Keyset) (limit : ℤ) (cursor : Option Text) (correlationId : Uuid)
    (userId : UserId) : Orchestration ListSessionsResponse :=
  match cursor with
  | none => listSessions keyset limit none correlationId userId
  | some text =>
      match shortText text with
      | some text => listSessions keyset limit (some text) correlationId userId
      | none => .raise (invalidList "invalid limit or cursor" correlationId)

end SessionsApi

/-- `^sess-[0-9a-f]{8}-[0-9a-f]{4}-[0-9a-f]{4}-[0-9a-f]{4}-[0-9a-f]{12}$`. -/
def isSessionId (id : Text) : Prop :=
  ∃ a b c d e : List Char, id.toList = "sess-".toList ++ a ++ '-' :: b ++ '-' :: c ++ '-' :: d ++
      '-' :: e ∧ a.length = 8 ∧ b.length = 4 ∧ c.length = 4 ∧ d.length = 4 ∧ e.length = 12 ∧
    ∀ x ∈ a ++ b ++ c ++ d ++ e, x.isDigit ∨ ('a' ≤ x ∧ x ≤ 'f')

theorem isSessionId.length {id : Text} (h : isSessionId id) : id.toList.length = 41 := by
  obtain ⟨a, b, c, d, e, hid, ha, hb, hc, hd, he, -⟩ := h
  have hprefix : "sess-".toList.length = 5 := by decide
  rw [hid]
  simp only [List.length_append, List.length_cons, hprefix, ha, hb, hc, hd, he]

/-! ## Cursors -/

namespace SessionsApi

theorem separator_notMem (moment : Datetime) : ∀ c ∈ moment.isoformat, decide (c ≠ '|') = true := by
  intro c hc
  rw [decide_eq_true_eq]
  rintro rfl
  rcases moment.isIso_isoformat _ hc with ⟨n, hn, hdigit⟩ | hsep
  · revert n
    decide
  · revert hsep
    decide

theorem decodeCursor_encodeCursor (other : List Char → Option Datetime) {moment : Datetime}
    {sessionId : Text} (haware : moment.utcoffset ≠ none) (hid : sessionId ≠ "") :
    decodeCursor other (encodeCursor moment sessionId) = some (moment, sessionId) := by
  have hsep := separator_notMem moment
  have hid' : sessionId.toList ≠ [] := fun h => hid (String.toList_inj.mp h)
  unfold decodeCursor encodeCursor
  dsimp only
  generalize hraw : String.ofList (moment.isoformat ++ '|' :: sessionId.toList) = raw
  have hdecoded : String.fromUTF8? ⟨raw.toUTF8.data.toList.toArray⟩ = some raw := by
    rw [Array.toArray_toList]
    exact dif_pos raw.isValidUTF8
  have hlist : raw.toList = moment.isoformat ++ '|' :: sessionId.toList := by
    rw [← hraw, String.toList_ofList]
  have hdate : raw.toList.takeWhile (· ≠ '|') = moment.isoformat := by
    rw [hlist, List.takeWhile_append_of_pos hsep, List.takeWhile_cons]
    simp
  have hrest : (raw.toList.dropWhile (· ≠ '|')).drop 1 = sessionId.toList := by
    rw [hlist, List.dropWhile_append_of_pos hsep, List.dropWhile_cons]
    simp
  rw [String.toList_ofList, Base64.repad_unpad, Base64.decode_encode, Option.bind_eq_bind,
    Option.bind_some, hdecoded, Option.bind_eq_bind, Option.bind_some]
  rw [hdate, hrest, if_neg (not_or.mpr ⟨moment.isoformat_ne_nil, hid'⟩),
    Datetime.fromisoformat_isoformat, Option.bind_eq_bind, Option.bind_some, if_neg haware,
    String.ofList_toList]

theorem isWhiteSpace_char : ∀ n < 64, isWhiteSpace (Base64.char n) = false := by
  decide

theorem shortText_of {s : Text} (hchars : ∀ c ∈ s.toList, isWhiteSpace c = false)
    (hne : s.toList ≠ []) (hlength : s.toList.length ≤ 500) : shortText s = some s := by
  have hdrop : s.toList.dropWhile isWhiteSpace = s.toList := by
    rw [List.dropWhile_eq_self_iff]
    intro hpos
    rw [hchars _ (List.getElem_mem hpos)]
    exact Bool.false_ne_true
  have hreverse : s.toList.reverse.dropWhile isWhiteSpace = s.toList.reverse := by
    rw [List.dropWhile_eq_self_iff]
    intro hpos
    rw [hchars _ (List.mem_reverse.mp (List.getElem_mem hpos))]
    exact Bool.false_ne_true
  have hstrip : stripWhitespace s.toList = s.toList := by
    rw [stripWhitespace, hdrop, hreverse, List.reverse_reverse]
  unfold shortText
  dsimp only
  rw [hstrip, if_pos ⟨hne, hlength⟩, String.ofList_toList]

theorem utf8Len_le (cs : List Char) : String.utf8Len cs ≤ 4 * cs.length := by
  induction cs with
  | nil => exact le_rfl
  | cons c cs ih =>
      have hc := c.utf8Size_le_four
      rw [String.utf8Len_cons, List.length_cons]
      omega

theorem length_utf8 (s : String) : s.toUTF8.data.toList.length = String.utf8Len s.toList := by
  have hsize := String.utf8ByteSize_ofList s.toList
  rw [String.ofList_toList] at hsize
  exact hsize

/-- The cursor of a session passes the query's own checks. -/
theorem shortText_encodeCursor (moment : Datetime) {sessionId : Text}
    (hid : sessionId.toList.length = 41) :
    shortText (encodeCursor moment sessionId) = some (encodeCursor moment sessionId) := by
  unfold encodeCursor
  dsimp only
  generalize hraw : String.ofList (moment.isoformat ++ '|' :: sessionId.toList) = raw
  have hlength : raw.toList.length ≤ 84 := by
    have hmoment := moment.length_isoformat_le
    rw [← hraw, String.toList_ofList, List.length_append, List.length_cons, hid]
    omega
  have hbytes := (length_utf8 raw).trans_le (utf8Len_le raw.toList)
  have hencoded := Base64.length_encode raw.toUTF8.data.toList
  have hunpad := Base64.length_unpad_le (Base64.encode raw.toUTF8.data.toList)
  refine shortText_of ?_ ?_ ?_
  · rw [String.toList_ofList]
    intro c hc
    obtain ⟨n, hn, rfl⟩ := Base64.mem_unpad hc
    exact isWhiteSpace_char n hn
  · rw [String.toList_ofList]
    refine Base64.unpad_encode_ne_nil fun hnil => ?_
    have hzero := length_utf8 raw
    rw [hnil, List.length_nil, eq_comm, String.utf8Len_eq_zero, ← hraw,
      String.toList_ofList] at hzero
    exact List.append_ne_nil_of_right_ne_nil _ (List.cons_ne_nil _ _) hzero
  · rw [String.toList_ofList]
    omega

end SessionsApi

/-! ## The order of the rows -/

/-- Distinct texts are ordered one way. -/
structure Collation (le : Text → Text → Bool) : Prop where
  total : ∀ a b, le a b = true ∨ le b a = true
  trans : ∀ a b c, le a b = true → le b c = true → le a c = true
  antisymm : ∀ a b, le a b = true → le b a = true → a = b

namespace Keyset
variable {keyset : Keyset} {x y : SessionRow}

def key (keyset : Keyset) (row : SessionRow) : Time × Text :=
  (row.record.updatedAt, keyset.sessionText row.record.sessionId)

theorem follows_iff : keyset.follows (keyset.key x) y = true ↔
    y.record.updatedAt < x.record.updatedAt ∨ y.record.updatedAt = x.record.updatedAt ∧
      keyset.le (keyset.key y).2 (keyset.key x).2 = true ∧
      keyset.le (keyset.key x).2 (keyset.key y).2 = false := by
  unfold follows
  rw [Bool.or_eq_true, Bool.and_eq_true, Bool.and_eq_true, Bool.not_eq_true', and_assoc]
  exact or_congr decide_eq_true_iff (and_congr decide_eq_true_iff Iff.rfl)

theorem follows_asymm (x y : SessionRow) (h : keyset.follows (keyset.key x) y = true) :
    keyset.follows (keyset.key y) x = false := by
  rw [← Bool.not_eq_true, follows_iff]
  rcases follows_iff.mp h with hlt | ⟨heq, hle, hnle⟩
  · rintro (hlt' | ⟨heq', -⟩)
    · exact lt_asymm hlt hlt'
    · exact hlt.ne' heq'
  · rintro (hlt' | ⟨-, hle', -⟩)
    · exact hlt'.ne' heq
    · rw [hnle] at hle'
      exact Bool.false_ne_true hle'

section Collated
variable (hle : Collation keyset.le)
include hle

theorem newestFirst_total : Std.Total keyset.newestFirst where
  total x y := by
    have htexts := hle.total (keyset.key y).2 (keyset.key x).2
    unfold newestFirst
    rcases Nat.lt_trichotomy x.record.updatedAt y.record.updatedAt with hlt | heq | hgt
    · exact .inr (.inl hlt)
    · exact htexts.imp (fun h => .inr ⟨heq.symm, h⟩) fun h => .inr ⟨heq, h⟩
    · exact .inl (.inl hgt)

theorem newestFirst_trans : IsTrans SessionRow keyset.newestFirst where
  trans x y z := by
    unfold newestFirst
    rintro (hxy | ⟨hxy, hxy'⟩) (hyz | ⟨hyz, hyz'⟩)
    · exact .inl (hyz.trans hxy)
    · exact .inl (hyz ▸ hxy)
    · exact .inl (hxy ▸ hyz)
    · exact .inr ⟨hyz.trans hxy, hle.trans _ _ _ hyz' hxy'⟩

theorem newestFirst_antisymm (hxy : keyset.newestFirst x y) (hyx : keyset.newestFirst y x) :
    keyset.key x = keyset.key y := by
  rcases hxy with hxy | ⟨hxy, hxy'⟩
  · rcases hyx with hyx | ⟨hyx, -⟩
    · exact absurd hyx (lt_asymm hxy)
    · exact absurd hyx hxy.ne'
  · rcases hyx with hyx | ⟨-, hyx'⟩
    · exact absurd hxy hyx.ne'
    · exact Prod.ext hxy.symm (hle.antisymm _ _ hyx' hxy')

/-- Of two rows with different keys the later one follows. -/
theorem follows_of_newestFirst (hxy : keyset.newestFirst x y)
    (hne : (keyset.key x).2 ≠ (keyset.key y).2) : keyset.follows (keyset.key x) y = true := by
  rw [follows_iff]
  rcases hxy with hlt | ⟨heq, hxy⟩
  · exact .inl hlt
  · refine .inr ⟨heq, hxy, ?_⟩
    rw [← Bool.not_eq_true]
    exact fun hyx => hne (hle.antisymm _ _ hyx hxy)

variable {own : List SessionRow} (hids : (own.map fun row => (keyset.key row).2).Nodup)
include hids

/-- The order is strict where every id occurs once. -/
theorem pairwise_follows :
    (own.insertionSort keyset.newestFirst).Pairwise fun x y =>
      keyset.follows (keyset.key x) y = true := by
  have := newestFirst_total hle
  have := newestFirst_trans hle
  have hsorted := List.pairwise_insertionSort keyset.newestFirst own
  have hdistinct : ((own.insertionSort keyset.newestFirst).map fun row =>
      (keyset.key row).2).Nodup :=
    (((List.perm_insertionSort _ own).map _).nodup_iff).mpr hids
  rw [List.Nodup, List.pairwise_map] at hdistinct
  exact hsorted.imp₂ (fun _ _ hxy hne => follows_of_newestFirst hle hxy hne) hdistinct

/-- A table's rows come in any order, the sorted ones do not. -/
theorem insertionSort_filter {rows : List SessionRow} (hperm : rows.Perm own)
    (p : SessionRow → Bool) : (rows.filter p).insertionSort keyset.newestFirst =
      (own.insertionSort keyset.newestFirst).filter p := by
  have := newestFirst_total hle
  have := newestFirst_trans hle
  have hrows : ((rows.filter p).insertionSort keyset.newestFirst).Perm
      ((own.insertionSort keyset.newestFirst).filter p) :=
    (List.perm_insertionSort _ _).trans
      ((hperm.filter p).trans ((List.perm_insertionSort _ own).symm.filter p))
  refine List.Perm.eq_of_pairwise (fun x y hx hy hxy hyx => ?_)
    (List.pairwise_insertionSort _ _)
    ((List.pairwise_insertionSort _ _).filter p) hrows
  have hx' := (List.perm_insertionSort _ own).mem_iff.mp
    (List.mem_of_mem_filter (hrows.mem_iff.mp hx))
  have hy' := (List.perm_insertionSort _ own).mem_iff.mp (List.mem_of_mem_filter hy)
  exact List.inj_on_of_nodup_map hids hx' hy'
    (congrArg Prod.snd (newestFirst_antisymm hle hxy hyx))

end Collated
end Keyset

/-! ## Following the cursors -/

/-- What the list shows of a row. -/
def SessionRow.summary (row : SessionRow) : SessionSummary where
  sessionId := row.record.sessionId
  storyRunId := row.record.storyRunId
  storyId := row.record.storyId
  state := row.record.state
  requestedFormats := row.record.requestedFormats
  processingStage := row.processingStage
  createdAt := row.record.createdAt
  updatedAt := row.record.updatedAt

/-- Request `n` of a client for one page finds the world `worlds n`. -/
def SessionsApi.pages (keyset : Keyset) (limit : ℤ) (userId : UserId) (worlds : ℕ → World)
    (choices : ℕ → ℕ → Choice) (correlationIds : ℕ → Uuid) (n : ℕ) (cursor : Option Text) :
    Option (List SessionSummary × Option Text) :=
  match ((listSessionsQuery keyset limit cursor (correlationIds n) userId).run (choices n)
      (worlds n)).1 with
  | .ok page => some (page.sessions, page.nextCursor)
  | .error _ => none

namespace SessionsApi
variable {keyset : Keyset} {w : World} {limit : ℤ} {userId : UserId}

theorem mapM_summary {rows : List SessionRow} (h : ∀ row ∈ rows, row.record.Valid) :
    rows.mapM sessionSummary = .ok (rows.map SessionRow.summary) := by
  induction rows with
  | nil => rfl
  | cons row rows ih =>
      have hrow := h row List.mem_cons_self
      have hsummary : sessionSummary row = .ok row.summary :=
        if_pos ⟨hrow.1, Commit.length_le_of_formats hrow.2.1, hrow.2.1⟩
      rw [List.mapM_cons, hsummary, ih fun row h' => h row (List.mem_cons_of_mem _ h')]
      rfl

/-- The page that follows a key. -/
def pageAfter (keyset : Keyset) (userId : UserId) (limit : ℕ) (before : Option (Time × Text))
    (w : World) : ListSessionsResponse :=
  let rows := sessionRows keyset userId limit before w
  ⟨(rows.take limit).map SessionRow.summary,
    if limit < rows.length then (rows.take limit).getLast?.map fun row =>
      keyset.encodeCursor row.record.updatedAt (keyset.sessionText row.record.sessionId)
    else none⟩

theorem wp_pageAfter (A : Choice → Prop) (hlimit : 1 ≤ limit ∧ limit ≤ 100) {cursor : Option Text}
    {before : Option (Time × Text)} (hbefore : cursor.map keyset.decodeCursor = before.map some)
    (hvalid : ∀ row ∈ w.sessions, row.record.userId = userId → row.record.Valid)
    (correlationId : Uuid) :
    (listSessions keyset limit cursor correlationId userId).wp A (fun _ => True)
      (fun page _ => page = pageAfter keyset userId limit.toNat before w) (fun _ _ => False) w := by
  have hpage : ∀ row ∈ (sessionRows keyset userId limit.toNat before w).take limit.toNat,
      row.record.Valid := by
    intro row hrow
    have hmem := List.mem_of_mem_take (List.mem_of_mem_take hrow)
    rw [List.mem_insertionSort] at hmem
    have hown := List.mem_of_mem_filter hmem
    exact hvalid row (List.mem_of_mem_filter hown) (of_decide_eq_true (List.mem_filter.mp hown).2)
  have hcount : (((sessionRows keyset userId limit.toNat before w).take limit.toNat).map
      SessionRow.summary).length ≤ 100 := by
    rw [List.length_map, List.length_take]
    omega
  unfold listSessions
  rw [if_neg (by omega)]
  refine (wp_bind _ _).mpr ((wp_ofExcept _).mpr ⟨fun before' hdecoded => ?_, fun e he => ?_⟩)
  · have hsame : before' = before := by
      cases cursor with
      | none =>
          cases before with
          | none => exact (Except.ok.inj hdecoded).symm
          | some key => cases hbefore
      | some text =>
          cases before with
          | none => cases hbefore
          | some key =>
              simp only [Option.some.inj hbefore] at hdecoded
              exact (Except.ok.inj hdecoded).symm
    rw [hsame]
    refine (wp_bind _ _).mpr ((wp_bind _ _).mpr fun c _ => ⟨trivial, ?_⟩)
    have hpage' : ∀ row ∈ (sessionRows keyset userId limit.toNat before (w.tick c)).take
        limit.toNat, row.record.Valid := hpage
    have hcount' : (((sessionRows keyset userId limit.toNat before (w.tick c)).take
        limit.toNat).map SessionRow.summary).length ≤ 100 := hcount
    rw [wp_ret, if_pos hpage']
    dsimp only
    rw [pure_eq, wp_ret]
    dsimp only
    rw [mapM_summary hpage']
    refine (wp_bind _ _).mpr ?_
    rw [ofExcept_ok, wp_ret, if_pos hcount', pure_eq, wp_ret]
    simp only [decide_eq_true_iff]
    rfl
  · cases cursor with
    | none => cases he
    | some text =>
        cases before with
        | none => cases hbefore
        | some key =>
            simp only [Option.some.inj hbefore] at he
            cases he

end SessionsApi

namespace Keyset
variable {keyset : Keyset} {own : List SessionRow} {userId : UserId}

def cursor (keyset : Keyset) (row : SessionRow) : Text :=
  keyset.encodeCursor row.record.updatedAt (keyset.sessionText row.record.sessionId)

/-- The rows after a split of the sorted rows. -/
theorem sessionRows_of_split (hle : Collation keyset.le)
    (hids : (own.map fun row => (keyset.key row).2).Nodup) {w : World}
    (hown : (w.sessions.filter fun row => decide (row.record.userId = userId)).Perm own)
    {pre post : List SessionRow} (hsplit : pre ++ post = own.insertionSort keyset.newestFirst)
    (limit : ℕ) :
    sessionRows keyset userId limit (pre.getLast?.map keyset.key) w = post.take (limit + 1) := by
  unfold sessionRows
  dsimp only
  rw [insertionSort_filter hle hids hown, ← hsplit]
  congr 1
  rcases List.eq_nil_or_concat pre with rfl | ⟨init, x, rfl⟩
  · exact List.filter_eq_self.mpr fun _ _ => rfl
  · have hsorted := pairwise_follows hle hids
    rw [← hsplit, List.concat_eq_append, List.append_assoc, List.singleton_append] at hsorted
    have hafter := Cursors.filter_after (r := fun x y => keyset.follows (keyset.key x) y)
      follows_asymm hsorted
    rw [List.concat_eq_append, List.getLast?_concat, List.append_assoc, List.singleton_append]
    exact hafter

variable {limit : ℤ} {worlds : ℕ → World}

theorem listing_sessions (hle : Collation keyset.le) (hlimit : 1 ≤ limit ∧ limit ≤ 100)
    (hown : ∀ n, ((worlds n).sessions.filter fun row =>
      decide (row.record.userId = userId)).Perm own)
    (hvalid : ∀ row ∈ own, row.record.Valid)
    (hids : (own.map fun row => (keyset.key row).2).Nodup)
    (hcursor : ∀ row ∈ own, SessionsApi.shortText (keyset.cursor row) = some (keyset.cursor row) ∧
      keyset.decodeCursor (keyset.cursor row) = some (keyset.key row))
    (choices : ℕ → ℕ → Choice) (correlationIds : ℕ → Uuid) :
    Cursors.Listing (SessionsApi.pages keyset limit userId worlds choices correlationIds) 0 none
      ((own.insertionSort keyset.newestFirst).map SessionRow.summary) := by
  have hpages : ∀ n pre post, pre ++ post = own.insertionSort keyset.newestFirst →
      SessionsApi.pages keyset limit userId worlds choices correlationIds n
        (pre.getLast?.map keyset.cursor) =
        some ((post.take limit.toNat).map SessionRow.summary,
          if limit.toNat < post.length then (post.take limit.toNat).getLast?.map keyset.cursor
          else none) := by
    intro n pre post hsplit
    have hmem : ∀ x, pre.getLast? = some x → x ∈ own := by
      intro x hx
      have hpre := List.mem_append_left post (List.mem_of_getLast? hx)
      rw [hsplit] at hpre
      exact (List.perm_insertionSort _ own).mem_iff.mp hpre
    have hquery : SessionsApi.listSessionsQuery keyset limit (pre.getLast?.map keyset.cursor)
        (correlationIds n) userId = SessionsApi.listSessions keyset limit
          (pre.getLast?.map keyset.cursor) (correlationIds n) userId := by
      cases hx : pre.getLast? with
      | none => rfl
      | some x => simp only [Option.map_some, SessionsApi.listSessionsQuery,
          (hcursor x (hmem x hx)).1]
    have hbefore : (pre.getLast?.map keyset.cursor).map keyset.decodeCursor =
        (pre.getLast?.map keyset.key).map some := by
      cases hx : pre.getLast? with
      | none => rfl
      | some x => exact congrArg some (hcursor x (hmem x hx)).2
    have hrows := sessionRows_of_split hle hids (hown n) hsplit limit.toNat
    have hvalid' : ∀ row ∈ (worlds n).sessions, row.record.userId = userId → row.record.Valid :=
      fun row hrow huser => hvalid row ((hown n).mem_iff.mp
        (List.mem_filter.mpr ⟨hrow, decide_eq_true huser⟩))
    have hend := wp_run (SessionsApi.wp_pageAfter (fun c => ∃ m, choices n m = c) hlimit hbefore
      hvalid' (correlationIds n)) fun m => ⟨m, rfl⟩
    unfold SessionsApi.pages
    rw [hquery]
    revert hend
    generalize Program.run _ _ _ = outcome
    obtain ⟨result, w'⟩ := outcome
    cases result with
    | error e => exact False.elim
    | ok page =>
        rintro rfl
        have hmore : limit.toNat < (post.take (limit.toNat + 1)).length ↔
            limit.toNat < post.length := by
          rw [List.length_take]
          omega
        simp only [SessionsApi.pageAfter, hrows, List.take_take, hmore,
          Nat.min_eq_left (Nat.le_succ _)]
        rfl
  exact Cursors.listing_of_pages (by omega) hpages 0 [] _ rfl

end Keyset

section Sessions
variable {sessionText : SessionId → Text} {le : Text → Text → Bool} {own : List SessionRow}

/-- A valid row's key comes back from its cursor. -/
theorem SessionsApi.keyset_cursor (other : List Char → Option Datetime) {row : SessionRow}
    (hid : isSessionId (sessionText row.record.sessionId))
    (htime : row.record.updatedAt < 3652059 * 86400000000) :
    let keys := keyset sessionText le other
    shortText (keys.cursor row) = some (keys.cursor row) ∧
      keys.decodeCursor (keys.cursor row) = some (keys.key row) := by
  intro keys
  obtain ⟨moment, hutc, hoffset, hinstant⟩ := Datetime.exists_utc htime
  have hcursor : keys.cursor row = encodeCursor moment (sessionText row.record.sessionId) := by
    simp only [keys, Keyset.cursor, keyset, hutc, Option.elim_some]
  have haware : moment.utcoffset ≠ none := by
    rw [hoffset]
    exact Option.some_ne_none _
  have hne : sessionText row.record.sessionId ≠ "" := by
    intro hempty
    have hlength := hid.length
    rw [hempty] at hlength
    exact absurd hlength (by decide)
  rw [hcursor]
  refine ⟨shortText_encodeCursor moment hid.length, ?_⟩
  simp only [keys, keyset, decodeCursor_encodeCursor other haware hne, Option.map_some, hinstant,
    Int.toNat_natCast]
  rfl

/-- Whatever the page size and whatever else changes meanwhile, a client that follows the
cursors ends with every session of the user, each once and newest first. A cursor decodes to
the timestamp and the session id it was made from. -/
theorem sessions_listed_once (hle : Collation le) (other : List Char → Option Datetime)
    (userId : UserId) {limit : ℤ} (hlimit : 1 ≤ limit ∧ limit ≤ 100) (worlds : ℕ → World)
    (hown : ∀ n, ((worlds n).sessions.filter fun row =>
      decide (row.record.userId = userId)).Perm own)
    (hvalid : ∀ row ∈ own, row.record.Valid)
    (hids : (own.map fun row => sessionText row.record.sessionId).Nodup)
    (htexts : ∀ row ∈ own, isSessionId (sessionText row.record.sessionId))
    (htimes : ∀ row ∈ own, row.record.updatedAt < 3652059 * 86400000000)
    (choices : ℕ → ℕ → Choice) (correlationIds : ℕ → Uuid) :
    let keys := SessionsApi.keyset sessionText le other
    (∃ rows : List SessionRow, rows.Perm own ∧
      (rows.Pairwise fun x y => keys.follows (keys.key x) y = true) ∧
      ∀ listed, Cursors.Listing (SessionsApi.pages keys limit userId worlds choices
        correlationIds) 0 none listed ↔ listed = rows.map SessionRow.summary) ∧
    ∀ (moment : Datetime) (sessionId : Text), moment.utcoffset ≠ none → sessionId ≠ "" →
      SessionsApi.decodeCursor other (SessionsApi.encodeCursor moment sessionId) =
        some (moment, sessionId) := by
  intro keys
  have hkeys : (own.map fun row => (keys.key row).2).Nodup := hids
  have hlisting : Cursors.Listing (SessionsApi.pages keys limit userId worlds choices
      correlationIds) 0 none ((own.insertionSort keys.newestFirst).map SessionRow.summary) :=
    Keyset.listing_sessions hle hlimit hown hvalid hkeys
      (fun row hrow => SessionsApi.keyset_cursor other (htexts row hrow) (htimes row hrow))
      choices correlationIds
  refine ⟨⟨own.insertionSort keys.newestFirst, List.perm_insertionSort _ own,
    Keyset.pairwise_follows hle hids, fun listed => ⟨fun h => h.unique hlisting, ?_⟩⟩,
    fun _ _ => SessionsApi.decodeCursor_encodeCursor other⟩
  rintro rfl
  exact hlisting

end Sessions
namespace Scenario

/-- An active session of the user, last updated at one moment. -/
def sessionRow (userId : UserId) (n : ℕ) : SessionRow where
  record := {
    sessionId := ⟨n⟩
    storyRunId := ⟨n⟩
    storyId := "story-01"
    userId := userId
    state := .active
    requestedFormats := [.md]
    facilitatorTurnCount := 1
    createdAt := 5
    updatedAt := 5 }
  processingStage := none

def sessionText (id : SessionId) : Text :=
  String.ofList ("sess-".toList ++ List.replicate 8 '0' ++ '-' :: List.replicate 4 '0' ++
    '-' :: ['4', '0', '0', '0'] ++ '-' :: ['8', '0', '0', '0'] ++ '-' :: Decimal.digits 12 id.key)

theorem isSessionId_sessionText (id : SessionId) : isSessionId (sessionText id) := by
  have hfixed : ∀ x ∈ List.replicate 8 '0' ++ List.replicate 4 '0' ++ ['4', '0', '0', '0'] ++
      ['8', '0', '0', '0'], x.isDigit = true := by
    intro x hx
    have hcases : x = '0' ∨ x = '4' ∨ x = '8' := by
      simp only [List.mem_append, List.mem_replicate, List.mem_cons, List.not_mem_nil] at hx
      tauto
    obtain rfl | rfl | rfl := hcases <;> rfl
  have hdigit : ∀ d < 10, (Decimal.digit d).isDigit = true := by decide
  refine ⟨_, _, _, _, _, String.toList_ofList, List.length_replicate, List.length_replicate, rfl,
    rfl, Decimal.length_digits _ _, ?_⟩
  intro x hx
  rcases List.mem_append.mp hx with hx | hx
  · exact .inl (hfixed x hx)
  · obtain ⟨d, hd, rfl⟩ := Decimal.mem_digits hx
    exact .inl (hdigit d hd)

/-- Pages of one row through two sessions that were updated at the same moment. -/
theorem sessions_listed_once_of_two : ∃ rows : List SessionRow,
    rows.Perm [sessionRow 7 1, sessionRow 7 2] ∧
      ∀ listed, Cursors.Listing (SessionsApi.pages (SessionsApi.keyset sessionText
        (fun a b => decide (a ≤ b)) fun _ => none) 1 7
        (fun _ => { sessions := [sessionRow 7 2, sessionRow 8 3, sessionRow 7 1] })
        (fun _ _ => steady) id) 0 none listed ↔ listed = rows.map SessionRow.summary := by
  have hle : Collation fun a b => decide (a ≤ b) := by
    refine ⟨fun a b => ?_, fun a b c => ?_, fun a b => ?_⟩
    · exact (le_total a b).imp decide_eq_true decide_eq_true
    · intro hab hbc
      exact decide_eq_true ((of_decide_eq_true hab).trans (of_decide_eq_true hbc))
    · intro hab hba
      exact le_antisymm (of_decide_eq_true hab) (of_decide_eq_true hba)
  let world : World := { sessions := [sessionRow 7 2, sessionRow 8 3, sessionRow 7 1] }
  have hlimit : (1 : ℤ) ≤ 1 ∧ (1 : ℤ) ≤ 100 := by decide
  have hown : (world.sessions.filter fun row => decide (row.record.userId = 7)).Perm
      [sessionRow 7 1, sessionRow 7 2] := List.Perm.swap _ _ _
  have hids : ([sessionRow 7 1, sessionRow 7 2].map fun row =>
      sessionText row.record.sessionId).Nodup := by decide +kernel
  have hlisted := sessions_listed_once hle (fun _ => none) 7 hlimit (fun _ => world)
    (fun _ => hown) (by decide) hids (fun row _ => isSessionId_sessionText _) (by decide)
    (fun _ _ => steady) id
  obtain ⟨⟨rows, hperm, -, hrows⟩, -⟩ := hlisted
  exact ⟨rows, hperm, hrows⟩

end Scenario
end StoryReview
