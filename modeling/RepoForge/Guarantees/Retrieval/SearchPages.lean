import Mathlib.Algebra.GroupWithZero.Nat
import RepoForge.Source.Retrieval.Search
import RepoForge.Spec.Retrieval.Cursors

/-!
# Pages of a search

Whoever follows the cursors of `search_page`, with limits and deadlines that change from page to
page, gets the matches of the unpaged search, each once and in order. A position in the files
stands for the matches from it on (`remaining`); a page takes some of them from the front and stops
at the position of the others.
-/
namespace RepoForge.Retrieval
open JsonLoads (Scalar flatText fieldText fieldsText fieldValues)
open PyStr (lit)

section Cursors

variable {R : Runtime} {binding : Text} {state : SearchCursorState}

def searchFields (binding : Text) (state : SearchCursorState) : List (Text × Scalar) :=
  [("binding".toList, .str binding), ("match_index".toList, .nat state.matchIndex),
    ("path_index".toList, .nat state.pathIndex), ("v".toList, .nat 1)]

/-- No Python sequence is longer than its indices. -/
def SearchCursorState.Small (state : SearchCursorState) : Prop :=
  state.pathIndex ≤ maxSize ∧ state.matchIndex ≤ maxSize

theorem searchPayload_read (hex : binding.all lowerHex = true) (small : state.Small) :
    loads R (PyStr.utf8 (Json.dumpsAscii (searchPayload binding state))) =
        .ok (.dict (fieldValues (searchFields binding state))) ∧
      (PyStr.utf8 (Json.dumpsAscii (searchPayload binding state))).length =
        (flatText (searchFields binding state)).length := by
  have paths := length_digits small.1
  have places := length_digits small.2
  refine @loads_flat R (searchFields binding state) (by simp [searchFields]) ?_ ?_
  · intro field here
    simp only [searchFields, List.mem_cons, List.not_mem_nil, or_false] at here
    rcases here with rfl | rfl | rfl | rfl
    · exact ⟨List.all_eq_true.mp (by dsimp only; decide), plain_of_lowerHex hex⟩
    · exact ⟨List.all_eq_true.mp (by dsimp only; decide), places.trans (by decide)⟩
    · exact ⟨List.all_eq_true.mp (by dsimp only; decide), paths.trans (by decide)⟩
    · exact ⟨List.all_eq_true.mp (by dsimp only; decide), show (Nat.toDigits 10 1).length ≤ 4300 by decide⟩
  · simp only [searchFields, List.pairwise_cons, List.mem_cons, List.not_mem_nil, or_false,
      forall_eq_or_imp, forall_eq, List.Pairwise.nil, and_true, false_implies, implies_true]
    decide

theorem length_encodeSearchCursor (R : Runtime) (hex : binding.all lowerHex = true)
    (size : binding.length = 64) (small : state.Small) :
    (encodeSearchCursor binding state).length ≤ maxCursorChars := by
  have paths := length_digits small.1
  have places := length_digits small.2
  have payload := (searchPayload_read (R := R) hex small).2
  rw [encodeSearchCursor]
  generalize PyStr.utf8 (Json.dumpsAscii (searchPayload binding state)) = raw at payload ⊢
  have envelope := (envelope_read (R := R) raw).2
  have inner := length_token_le raw
  have whole := length_token_le (PyStr.utf8 (Json.dumpsAscii (cursorEnvelope raw)))
  simp only [flatText, searchFields, envelopeFields, fieldsText, fieldText, Scalar.text,
    List.length_cons, List.length_append, List.length_nil, size, length_checksum,
    String.length_toList] at payload envelope
  have v : (Nat.toDigits 10 1).length = 1 := rfl
  have names : "binding".length = 7 ∧ "match_index".length = 11 ∧ "path_index".length = 10 ∧
    "v".length = 1 ∧ "checksum".length = 8 ∧ "payload".length = 7 := by decide
  have ahead : searchCursorPrefix.length = 10 := rfl
  rw [List.length_append, maxCursorChars]
  omega

/-- A cursor is read as the position it was written for. -/
theorem decode_encode_search (hex : binding.all lowerHex = true) (size : binding.length = 64)
    (small : state.Small) {total : Nat} (inside : state.pathIndex < total) :
    decodeSearchCursor R (some (encodeSearchCursor binding state)) binding total = .ok state := by
  have short := length_encodeSearchCursor R hex size small
  have payload := (searchPayload_read (R := R) hex small).1
  have envelope := (envelope_read (R := R)
    (PyStr.utf8 (Json.dumpsAscii (searchPayload binding state)))).1
  have ahead : searchCursorPrefix.isPrefixOf (encodeSearchCursor binding state) = true :=
    List.isPrefixOf_iff_prefix.mpr (List.prefix_append _ _)
  rw [decodeSearchCursor, if_neg (by simp [ahead, Nat.not_lt.mpr short])]
  rw [show (encodeSearchCursor binding state).drop searchCursorPrefix.length =
    token (PyStr.utf8 (Json.dumpsAscii (cursorEnvelope
      (PyStr.utf8 (Json.dumpsAscii (searchPayload binding state)))))) from List.drop_left]
  simp only [untoken_token, ok_bind, envelope]
  generalize PyStr.utf8 (Json.dumpsAscii (searchPayload binding state)) = raw at payload
  have first : item (.dict (fieldValues (envelopeFields raw))) "payload" =
      .ok (.str (PyStr.ofText (token raw))) := rfl
  have second : item (.dict (fieldValues (envelopeFields raw))) "checksum" =
      .ok (.str (PyStr.ofText (checksum raw))) := rfl
  have version : item (.dict (fieldValues (searchFields binding state))) "v" = .ok (.int 1) := rfl
  have bound : item (.dict (fieldValues (searchFields binding state))) "binding" =
      .ok (.str (PyStr.ofText binding)) := rfl
  have path : item (.dict (fieldValues (searchFields binding state))) "path_index" =
      .ok (.int state.pathIndex) := rfl
  have position : item (.dict (fieldValues (searchFields binding state))) "match_index" =
      .ok (.int state.matchIndex) := rfl
  have text : tokenText (.str (PyStr.ofText (token raw))) = .ok (token raw) := by
    rw [tokenText, if_pos (PyStr.ofText_encodable _), PyStr.replaced_ofText]
  simp only [first, ok_bind, text, untoken_token, second, isText_ofText, decide_true, Bool.not_true,
    Bool.false_eq_true, if_false, payload, version, bound, path, position, isOne, toInt]
  rw [if_neg (by omega), if_neg (by omega), Int.toNat_natCast, Int.toNat_natCast]

end Cursors

section Positions

variable (matchesOf : PyStr → List StructuredSearchMatch) (files : List PyStr)

/-- The matches from a position on. -/
def remaining (state : SearchCursorState) : List StructuredSearchMatch :=
  ((files.drop state.pathIndex).flatMap matchesOf).drop state.matchIndex

/-- A position that a scan may stop at or begin with. -/
def Placed (state : SearchCursorState) : Prop :=
  match files.drop state.pathIndex with
  | [] => state.matchIndex = 0
  | path :: _ => state.matchIndex ≤ (matchesOf path).length

/-- How many matches and files are left. -/
def weight (state : SearchCursorState) : Nat :=
  ((files.drop state.pathIndex).map fun path => (matchesOf path).length + 1).sum - state.matchIndex

/-- Where a scan that began at a position stopped, if it did. -/
structure StopsAfter (state : SearchCursorState) (stop : SearchCursorState) : Prop where
  inside : stop.pathIndex < files.length
  placed : Placed matchesOf files stop
  least : weight matchesOf files stop ≤ weight matchesOf files state
  less : stop ≠ state → weight matchesOf files stop < weight matchesOf files state

end Positions

section Scanning

variable {S : SearchRuntime} {maxResults byteBudget : Nat}
  {matchesOf : PyStr → List StructuredSearchMatch} {files : List PyStr} {expired : Nat → Bool}

/-- The inner loop takes matches from the front, all of them unless it stops at the next. -/
theorem scanMatches_takes {path : PyStr} {rest selected selected' : List StructuredSearchMatch}
    {used index used' : Nat} {stop : Option (Nat × SearchTruncation)}
    (run : scanMatches S maxResults byteBudget path selected used index rest =
      .ok (selected', used', stop)) :
    ∃ taken left, rest = taken ++ left ∧ selected' = selected ++ taken ∧
      (stop = none → left = []) ∧ ∀ halt ∈ stop, halt.1 = index + taken.length := by
  induction rest generalizing selected used index with
  | nil =>
    cases run
    exact ⟨[], [], rfl, by simp, fun _ => rfl, fun _ absent => nomatch absent⟩
  | cons item rest ih =>
    rw [scanMatches] at run
    split at run
    · cases run
    split at run
    · cases run
      exact ⟨[], item :: rest, rfl, by simp, (fun stopped => nomatch stopped),
        fun _ same => by cases same; rfl⟩
    split at run
    · cases run
      exact ⟨[], item :: rest, rfl, by simp, (fun stopped => nomatch stopped),
        fun _ same => by cases same; rfl⟩
    · obtain ⟨taken, left, rfl, rfl, whole, placed⟩ := ih run
      refine ⟨item :: taken, left, rfl, by simp, whole, fun halt stopped => ?_⟩
      rw [placed halt stopped, List.length_cons]
      omega

theorem remaining_cons {state : SearchCursorState} {path : PyStr} {rest : List PyStr}
    (here : files.drop state.pathIndex = path :: rest)
    (inside : state.matchIndex ≤ (matchesOf path).length) :
    remaining matchesOf files state =
      (matchesOf path).drop state.matchIndex ++ remaining matchesOf files ⟨state.pathIndex + 1, 0⟩ := by
  have next : files.drop (state.pathIndex + 1) = rest := by
    rw [← List.drop_drop, here]
    rfl
  rw [remaining, here, List.flatMap_cons, List.drop_append_of_le_length inside, remaining, next,
    List.drop_zero]

theorem weight_cons {state : SearchCursorState} {path : PyStr} {rest : List PyStr}
    (here : files.drop state.pathIndex = path :: rest) :
    weight matchesOf files state = (matchesOf path).length + 1 +
      weight matchesOf files ⟨state.pathIndex + 1, 0⟩ - state.matchIndex := by
  have next : files.drop (state.pathIndex + 1) = rest := by
    rw [← List.drop_drop, here]
    rfl
  rw [weight, here, List.map_cons, List.sum_cons, weight, next, Nat.sub_zero]

/-- Selected and remaining are what they were, wherever the scan stops. -/
theorem scanPaths_takes {paths : List PyStr} {searched : Bool}
    {selected : List StructuredSearchMatch} {used : Nat} {state : SearchCursorState} {scan : Scan}
    (here : files.drop state.pathIndex = paths) (placed : Placed matchesOf files state)
    (run : scanPaths S maxResults byteBudget matchesOf expired searched selected used state paths =
      .ok scan) :
    scan.selected ++ scan.stop.elim [] (fun stop => remaining matchesOf files stop.state) =
        selected ++ remaining matchesOf files state ∧
      ∀ stop ∈ scan.stop, StopsAfter matchesOf files state stop.state := by
  induction paths generalizing searched selected used state with
  | nil =>
    cases run
    refine ⟨?_, fun _ absent => nomatch absent⟩
    rw [remaining, here]
    simp
  | cons path rest ih =>
    have size : state.pathIndex < files.length := by
      by_contra outside
      rw [List.drop_eq_nil_of_le (Nat.le_of_not_lt outside)] at here
      cases here
    have inside : state.matchIndex ≤ (matchesOf path).length := by
      rw [Placed, here] at placed
      exact placed
    have weighs := @weight_cons matchesOf files state path rest here
    rw [scanPaths] at run
    split at run
    · cases run
      refine ⟨rfl, fun stop same => ?_⟩
      cases same
      exact ⟨size, placed, Nat.le_refl _, fun other => absurd rfl other⟩
    obtain ⟨⟨selected', used', stopped⟩, inner, run⟩ := bind_ok run
    obtain ⟨taken, left, divided, rfl, whole, position⟩ := scanMatches_takes inner
    have parts := remaining_cons here inside
    rw [divided] at parts
    cases stopped with
    | none =>
      have next : files.drop (state.pathIndex + 1) = rest := by
        rw [← List.drop_drop, here]
        rfl
      have fresh : Placed matchesOf files ⟨state.pathIndex + 1, 0⟩ := by
        rw [Placed]
        split
        · rfl
        · exact Nat.zero_le _
      obtain ⟨taking, stops⟩ := ih next fresh run
      refine ⟨?_, fun stop found => ?_⟩
      · rw [taking, parts, whole rfl]
        simp
      · obtain ⟨stop_inside, stop_placed, least, -⟩ := stops stop found
        exact ⟨stop_inside, stop_placed, by omega, fun _ => by omega⟩
    | some halt =>
      obtain ⟨index, reason⟩ := halt
      cases run
      have at_index : index = state.matchIndex + taken.length := position (index, reason) rfl
      have within : index ≤ (matchesOf path).length := by
        have lengths := congrArg List.length divided
        rw [List.length_drop, List.length_append] at lengths
        omega
      have again := @remaining_cons matchesOf files ⟨state.pathIndex, index⟩ path rest here within
      have rest_left : (matchesOf path).drop index = left := by
        rw [at_index, ← List.drop_drop, divided, List.drop_left]
      have lighter := @weight_cons matchesOf files ⟨state.pathIndex, index⟩ path rest here
      refine ⟨?_, fun stop same => ?_⟩
      · rw [Option.elim_some, again, rest_left, parts]
        simp
      · cases same
        refine ⟨size, ?_, by dsimp only at lighter ⊢; omega, fun other => ?_⟩
        · rw [Placed, here]
          exact within
        · have moved : index ≠ state.matchIndex := fun same => other (by rw [same])
          dsimp only at lighter ⊢
          omega

end Scanning

section Pages

variable {S : SearchRuntime} {scope : SearchScope} {request : SearchRequest} {limits : PageLimits}
  {cursor : Option Text} {page : SearchPage} {candidates : List PyStr} {binding : Text}
  {state : SearchCursorState}

/-- What a page is made of. -/
theorem searchPage_ok (read : searchPage S scope request limits cursor = .ok page) :
    ∃ candidates binding state scan,
      candidatesFrom request (PyStr.sortedDistinct request.paths) = .ok candidates ∧
      searchBinding scope request = .ok binding ∧
      decodeSearchCursor S.toRuntime cursor binding candidates.length = .ok state ∧
      scanPaths S limits.maxResults.toNat limits.byteBudget.toNat (searchPathMatches S request)
        limits.expired false [] 0 state (candidates.drop state.pathIndex) = .ok scan ∧
      page = scannedPage scope request binding candidates.length scan := by
  unfold searchPage at read
  obtain ⟨-, -, read⟩ := bind_ok read
  dsimp only at read
  split at read
  · cases read
  split at read
  · cases read
  obtain ⟨-, -, read⟩ := bind_ok read
  obtain ⟨candidates, found, read⟩ := bind_ok read
  obtain ⟨binding, bound, read⟩ := bind_ok read
  obtain ⟨state, decoded, read⟩ := bind_ok read
  obtain ⟨scan, scanned, read⟩ := bind_ok read
  cases read
  refine ⟨candidates, binding, state, scan, found, bound, ?_, scanned, rfl⟩
  cases same : decodeSearchCursor S.toRuntime cursor binding candidates.length with
  | error e =>
    rw [same] at decoded
    cases decoded
  | ok position =>
    rw [same] at decoded
    cases decoded
    rfl

theorem searchPage_eq {scan : Scan} (asked : checkQuery request = .ok ())
    (results : 1 ≤ limits.maxResults ∧ limits.maxResults ≤ 200)
    (bytes : 1 ≤ limits.byteBudget ∧ limits.byteBudget ≤ 120000)
    (patterns : checkPatterns S request = .ok ())
    (found : candidatesFrom request (PyStr.sortedDistinct request.paths) = .ok candidates)
    (bound : searchBinding scope request = .ok binding)
    (decoded : decodeSearchCursor S.toRuntime cursor binding candidates.length = .ok state)
    (scanned : scanPaths S limits.maxResults.toNat limits.byteBudget.toNat
      (searchPathMatches S request) limits.expired false [] 0 state
      (candidates.drop state.pathIndex) = .ok scan) :
    searchPage S scope request limits cursor =
      .ok (scannedPage scope request binding candidates.length scan) := by
  unfold searchPage
  rw [asked, ok_bind, if_neg (not_not.mpr results), if_neg (not_not.mpr bytes), patterns, ok_bind,
    found, ok_bind, bound, ok_bind, decoded]
  change (scanPaths _ _ _ _ _ _ _ _ _ _ >>= _) = _
  rw [scanned]
  rfl

/-- A page takes matches from the front of what is left, and its next cursor stands for the rest. -/
theorem searchPage_takes
    (found : candidatesFrom request (PyStr.sortedDistinct request.paths) = .ok candidates)
    (bound : searchBinding scope request = .ok binding)
    (decoded : decodeSearchCursor S.toRuntime cursor binding candidates.length = .ok state)
    (placed : Placed (searchPathMatches S request) candidates state)
    (read : searchPage S scope request limits cursor = .ok page) :
    ∃ stop : Option SearchCursorState, page.nextCursor = stop.map (encodeSearchCursor binding) ∧
      page.found ++ stop.elim [] (remaining (searchPathMatches S request) candidates) =
        remaining (searchPathMatches S request) candidates state ∧
      ∀ next ∈ stop, StopsAfter (searchPathMatches S request) candidates state next := by
  obtain ⟨candidates', binding', state', scan, found', bound', decoded', scanned, rfl⟩ :=
    searchPage_ok read
  rw [found] at found'
  cases found'
  rw [bound] at bound'
  cases bound'
  rw [decoded] at decoded'
  cases decoded'
  obtain ⟨taken, stops⟩ := scanPaths_takes rfl placed scanned
  refine ⟨scan.stop.map (·.state), ?_, ?_, ?_⟩
  · rw [Option.map_map]
    rfl
  · cases stopped : scan.stop with
    | none =>
      rw [stopped] at taken
      exact taken
    | some stop =>
      rw [stopped] at taken
      exact taken
  · intro next here
    obtain ⟨stop, stopped, rfl⟩ := Option.mem_map.mp here
    exact stops stop stopped

end Pages

section Following

variable (S : SearchRuntime) (scope : SearchScope) (request : SearchRequest)
  (limits : Nat → PageLimits)

/-- The pages from a cursor on, the last without a next cursor; each page has its own limits. -/
inductive PagesFrom : Nat → Option Text → List SearchPage → Prop where
  | last {n : Nat} {cursor : Option Text} {page : SearchPage}
      (read : searchPage S scope request (limits n) cursor = .ok page)
      (done : page.nextCursor = none) : PagesFrom n cursor [page]
  | next {n : Nat} {cursor : Option Text} {page : SearchPage} {following : Text}
      {pages : List SearchPage} (read : searchPage S scope request (limits n) cursor = .ok page)
      (more : page.nextCursor = some following) (rest : PagesFrom (n + 1) (some following) pages) :
      PagesFrom n cursor (page :: pages)

/-- The cursors that are followed from the start. -/
inductive FollowedPages : Nat → Option Text → Prop where
  | start : FollowedPages 0 none
  | next {n : Nat} {cursor : Option Text} {page : SearchPage} {following : Text}
      (before : FollowedPages n cursor) (read : searchPage S scope request (limits n) cursor = .ok page)
      (more : page.nextCursor = some following) : FollowedPages (n + 1) (some following)

/-- Each page returns, and its next cursor is another than the one it was given. -/
def EachProgresses : Prop :=
  ∀ n cursor, FollowedPages S scope request limits n cursor →
    ∃ page, searchPage S scope request (limits n) cursor = .ok page ∧
      (page.nextCursor = none ∨ page.nextCursor ≠ cursor)

/-- No Python sequence is longer than its indices. -/
structure Countable : Prop where
  files : request.paths.length ≤ maxSize
  found : ∀ path, (searchPathMatches S request path).length ≤ maxSize

/-- A match with the lines of its context cut at 4,000 characters. -/
def StructuredSearchMatch.cut (found : StructuredSearchMatch) : StructuredSearchMatch :=
  { found with
    contextBefore := found.contextBefore.map (·.take 4000)
    contextAfter := found.contextAfter.map (·.take 4000) }

end Following

section Whole

variable {S : SearchRuntime} {scope : SearchScope} {request : SearchRequest}
  {limits : Nat → PageLimits} {cursor : Option Text} {candidates : List PyStr} {binding : Text}
  {state : SearchCursorState}

theorem length_candidatesFrom {paths : List PyStr}
    (found : candidatesFrom request paths = .ok candidates) : candidates.length ≤ paths.length := by
  induction paths generalizing candidates with
  | nil =>
    cases found
    exact Nat.le_refl _
  | cons path rest ih =>
    obtain ⟨fits, -, found⟩ := bind_ok found
    obtain ⟨others, here, found⟩ := bind_ok found
    have fewer := ih here
    cases found
    split
    · exact Nat.succ_le_succ fewer
    · exact fewer.trans (Nat.le_succ _)

theorem searchBinding_hex (bound : searchBinding scope request = .ok binding) :
    binding.length = 64 ∧ binding.all lowerHex = true := by
  unfold searchBinding at bound
  split at bound
  · cases bound
    exact Sha256.hexdigest_hex _
  · cases bound

/-- The next cursor is read as the position where the page stopped. -/
theorem decode_stop (countable : Countable S request)
    (found : candidatesFrom request (PyStr.sortedDistinct request.paths) = .ok candidates)
    (bound : searchBinding scope request = .ok binding) {next : SearchCursorState}
    (stops : StopsAfter (searchPathMatches S request) candidates state next) :
    decodeSearchCursor S.toRuntime (some (encodeSearchCursor binding next)) binding
      candidates.length = .ok next := by
  obtain ⟨size, hex⟩ := searchBinding_hex bound
  have few : candidates.length ≤ maxSize := by
    refine (length_candidatesFrom found).trans (le_trans ?_ countable.files)
    rw [PyStr.sortedDistinct, List.length_insertionSort]
    exact (List.dedup_sublist _).length_le
  have small : next.matchIndex ≤ maxSize := by
    have placed := stops.placed
    rw [Placed] at placed
    split at placed
    · rw [placed]
      exact Nat.zero_le _
    · exact placed.trans (countable.found _)
  exact decode_encode_search hex size ⟨stops.inside.le.trans few, small⟩ stops.inside

theorem pagesFrom_whole (countable : Countable S request)
    (found : candidatesFrom request (PyStr.sortedDistinct request.paths) = .ok candidates)
    (bound : searchBinding scope request = .ok binding) {n : Nat} {pages : List SearchPage}
    (read : PagesFrom S scope request limits n cursor pages)
    (decoded : decodeSearchCursor S.toRuntime cursor binding candidates.length = .ok state)
    (placed : Placed (searchPathMatches S request) candidates state) :
    pages.flatMap (·.found) = remaining (searchPathMatches S request) candidates state := by
  induction read generalizing state with
  | last read done =>
    obtain ⟨stop, next, taken, -⟩ := searchPage_takes found bound decoded placed read
    rw [done] at next
    rw [Option.map_eq_none_iff.mp next.symm, Option.elim_none, List.append_nil] at taken
    rw [List.flatMap_singleton, taken]
  | next read more rest ih =>
    obtain ⟨stop, next, taken, stops⟩ := searchPage_takes found bound decoded placed read
    rw [more] at next
    obtain ⟨position, rfl, rfl⟩ := Option.map_eq_some_iff.mp next.symm
    have stopped := stops position rfl
    rw [List.flatMap_cons, ih (decode_stop countable found bound stopped) stopped.placed]
    exact taken

/-- The matches and files that are left bound the pages. -/
theorem pagesFrom_exist (countable : Countable S request)
    (found : candidatesFrom request (PyStr.sortedDistinct request.paths) = .ok candidates)
    (bound : searchBinding scope request = .ok binding)
    (progress : EachProgresses S scope request limits) {n : Nat} {start : SearchCursorState}
    (stops : StopsAfter (searchPathMatches S request) candidates start state)
    (followed : FollowedPages S scope request limits n (some (encodeSearchCursor binding state))) :
    ∃ pages, PagesFrom S scope request limits n (some (encodeSearchCursor binding state)) pages := by
  induction left : weight (searchPathMatches S request) candidates state
    using Nat.strong_induction_on generalizing n start state with
  | _ bound' ih =>
    obtain ⟨page, read, moves⟩ := progress n _ followed
    have decoded := decode_stop countable found bound stops
    obtain ⟨stop, next, -, later⟩ := searchPage_takes found bound decoded stops.placed read
    cases stop with
    | none => exact ⟨[page], .last read next⟩
    | some position =>
      have lighter := (later position rfl).less fun same => by
        rw [same] at next
        rcases moves with done | moved
        · rw [next] at done
          cases done
        · exact moved next
      obtain ⟨pages, rest⟩ :=
        ih _ (left ▸ lighter) (later position rfl) (.next followed read next) rfl
      exact ⟨page :: pages, .next read next rest⟩

end Whole

section Unpaged

variable {S : SearchRuntime} {request : SearchRequest} {candidates : List PyStr}

/-- `search_page` enumerates what `search_files` does, with shorter context lines. -/
theorem searchPathMatches_eq (path : PyStr) :
    searchPathMatches S request path = (fileMatches S request id path).map .cut := by
  unfold searchPathMatches fileMatches
  split
  · split <;> rfl
  · cases S.loadText path with
    | none => rfl
    | some text =>
      dsimp only
      rw [List.map_flatMap]
      refine List.flatMap_congr fun line _ => ?_
      rw [List.map_map]
      exact List.map_congr_left fun start _ => by simp [StructuredSearchMatch.cut]

theorem searchFilesFrom_ok {expired : Nat → Bool} {searched : Nat} {paths : List PyStr}
    {found all : List StructuredSearchMatch}
    (run : searchFilesFrom S request expired searched found paths = .ok all) :
    ∃ candidates, candidatesFrom request paths = .ok candidates ∧
      all = found ++ candidates.flatMap (fileMatches S request id) := by
  induction paths generalizing searched found with
  | nil =>
    cases run
    exact ⟨[], rfl, by simp⟩
  | cons path rest ih =>
    rw [searchFilesFrom] at run
    obtain ⟨fits, chosen, run⟩ := bind_ok run
    cases fits with
    | false =>
      obtain ⟨candidates, here, same⟩ := ih run
      exact ⟨candidates, by rw [candidatesFrom, chosen, ok_bind, here]; rfl, same⟩
    | true =>
      simp only [Bool.not_true, Bool.false_eq_true, if_false] at run
      split at run
      · cases run
      · obtain ⟨candidates, here, same⟩ := ih run
        refine ⟨path :: candidates, by rw [candidatesFrom, chosen, ok_bind, here]; rfl, ?_⟩
        rw [same, List.flatMap_cons, List.append_assoc]

theorem searchFiles_ok {expired : Nat → Bool} {all : List StructuredSearchMatch}
    (files : request.paths.Nodup) (run : searchFiles S request expired = .ok all) :
    ∃ candidates, candidatesFrom request (PyStr.sortedDistinct request.paths) = .ok candidates ∧
      remaining (searchPathMatches S request) candidates ⟨0, 0⟩ = all.map .cut := by
  obtain ⟨-, -, run⟩ := bind_ok run
  obtain ⟨-, -, run⟩ := bind_ok run
  obtain ⟨candidates, found, rfl⟩ := searchFilesFrom_ok run
  refine ⟨candidates, ?_, ?_⟩
  · rw [PyStr.sortedDistinct, List.Nodup.dedup files]
    exact found
  · rw [remaining, List.drop_zero, List.drop_zero, List.nil_append, List.map_flatMap]
    exact List.flatMap_congr fun path _ => searchPathMatches_eq path

theorem placed_start (matchesOf : PyStr → List StructuredSearchMatch) (files : List PyStr) :
    Placed matchesOf files ⟨0, 0⟩ := by
  unfold Placed
  split
  · rfl
  · exact Nat.zero_le _

end Unpaged

section Sample

/-- A short file, and one with a line of 4,001 characters. -/
def sampleFiles (path : PyStr) : Option PyStr :=
  if path = lit "long.txt" then some (List.replicate 4001 (.scalar 'a') ++ lit "\nx")
  else some (lit "x")

def sampleSearch : SearchRuntime where
  loads _ := .error .decode
  int _ := .typeError
  isOne _ := false
  depth := 994
  depth_pos := sampleDepth_pos
  casefold s := s
  compiles _ := true
  regexMatches _ _ := []
  loadText := sampleFiles
  itemBytes _ := 100

def searchFor (paths : List PyStr) : SearchRequest where
  paths := paths
  query := lit "x"
  mode := .literal
  pathGlob := none
  contextLines := 1

def sampleScope : SearchScope := ⟨"workspace_search_v2".toList, "ws-1".toList, false⟩

/-- The first page has no time for the second file. -/
def sampleLimits (n : Nat) : PageLimits := ⟨1, 1000, fun index => n = 0 && index = 1⟩

def foundIn (path : PyStr) (line : Nat) (before : List PyStr) : StructuredSearchMatch :=
  ⟨path, some line, some 1, lit "x", before, [], 10, "builtin_literal"⟩

theorem sampleProgress (binding : Text)
    (bound : searchBinding sampleScope (searchFor [lit "a.py", lit "b.py"]) = .ok binding) :
    EachProgresses sampleSearch sampleScope (searchFor [lit "a.py", lit "b.py"]) sampleLimits := by
  obtain ⟨size, hex⟩ := searchBinding_hex bound
  have stopped : ∃ page, searchPage sampleSearch sampleScope (searchFor [lit "a.py", lit "b.py"])
      (sampleLimits 0) none = .ok page ∧
      page.nextCursor = some (encodeSearchCursor binding ⟨1, 0⟩) := by
    exact ⟨_, searchPage_eq rfl (by decide) (by decide) rfl
      (show candidatesFrom _ _ = .ok [lit "a.py", lit "b.py"] from rfl) bound rfl
      (show _ = Except.ok ⟨[foundIn (lit "a.py") 1 []], some ⟨⟨1, 0⟩, .deadlineExceeded, 0⟩, 1, true⟩
        from rfl), rfl⟩
  have ended : ∃ page, searchPage sampleSearch sampleScope (searchFor [lit "a.py", lit "b.py"])
      (sampleLimits 1) (some (encodeSearchCursor binding ⟨1, 0⟩)) = .ok page ∧
      page.nextCursor = none := by
    have decoded := @decode_encode_search sampleSearch.toRuntime binding ⟨1, 0⟩ hex size
      ⟨by rw [maxSize]; decide, by rw [maxSize]; decide⟩ 2 (by decide)
    exact ⟨_, searchPage_eq rfl (by decide) (by decide) rfl
      (show candidatesFrom _ _ = .ok [lit "a.py", lit "b.py"] from rfl) bound decoded
      (show _ = Except.ok ⟨[foundIn (lit "b.py") 1 []], none, 2, true⟩ from rfl), rfl⟩
  obtain ⟨first, read_first, next⟩ := stopped
  obtain ⟨last, read_last, none_left⟩ := ended
  have followed : ∀ n cursor, FollowedPages sampleSearch sampleScope
      (searchFor [lit "a.py", lit "b.py"]) sampleLimits n cursor →
      (n = 0 ∧ cursor = none) ∨ (n = 1 ∧ cursor = some (encodeSearchCursor binding ⟨1, 0⟩)) := by
    intro n cursor path
    induction path with
    | start => exact .inl ⟨rfl, rfl⟩
    | next before read more ih =>
      rcases ih with ⟨rfl, rfl⟩ | ⟨rfl, rfl⟩
      · rw [read_first] at read
        cases read
        exact .inr ⟨rfl, more.symm.trans next⟩
      · rw [read_last] at read
        cases read
        rw [none_left] at more
        cases more
  intro n cursor path
  rcases followed n cursor path with ⟨rfl, rfl⟩ | ⟨rfl, rfl⟩
  · exact ⟨first, read_first, .inr (by rw [next]; exact Option.some_ne_none _)⟩
  · exact ⟨last, read_last, .inl none_left⟩

end Sample

end RepoForge.Retrieval
