import RepoForge.Library.KeptLines
import RepoForge.Source.IssueGraph.Bodies
import RepoForge.Spec.IssueGraph.Planned

/-!
# Materialised bodies

A rendered node is a front, which the author wrote, and the lines of its graph intent. The first
line of each of these is managed; what a title has after its first line break is the author's
too, and is left alone only if nothing in it looks managed.
-/
namespace RepoForge.IssueGraph
open PyStr (lit linesKept newline Differs)

section Wanted

/-- A line of a graph intent. -/
inductive GraphLine where
  | plain (text : PyStr)
  | references (label : String) (refs : List PyStr)
  | item (ref title : PyStr)

namespace GraphLine

/-- The text, with references and the references of items as they are shown. -/
def text (shown listed : PyStr → PyStr) : GraphLine → PyStr
  | plain text => text
  | references label refs => lit label ++ lit ": " ++ PyStr.join (lit ", ") (refs.map shown)
  | item ref title => itemMark ++ listed ref ++ lit " — " ++ title

/-- What a graph intent is made of after its heading. -/
def Fits (declared : List PyStr) : GraphLine → Prop
  | plain text => text ∈ [[], lit "## Delivery checklist"]
  | references label refs => label ∈ ["Parent", "Blocked by", "Relates", "Supersedes"] ∧
      ∀ ref ∈ refs, isSafeRef ref = true ∧ ref ∈ declared
  | item ref _ => isSafeRef ref = true ∧ ref ∈ declared

/-- The lines after the first, all of them of a title. -/
def later : GraphLine → List PyStr
  | item _ title => (linesKept (title ++ newline)).tail
  | _ => []

def first : GraphLine → PyStr
  | item ref title => itemMark ++ ref ++ lit " — " ++ (linesKept (title ++ newline)).headD []
  | line => line.text ticked id ++ newline

end GraphLine

def edgeLines (draft : IssueGraphDraft) (node : IssueNodeDraft) (kind : IssueEdgeKind)
    (label : String) : List GraphLine :=
  if edgeTargets draft node kind = [] then [] else [.references label (edgeTargets draft node kind)]

/-- The lines of the graph intent after its heading. -/
def intentLines (node : IssueNodeDraft) (draft : IssueGraphDraft) : List GraphLine :=
  (node.parentRef.toList.map fun parent => .references "Parent" [parent]) ++
  edgeLines draft node .blockedBy "Blocked by" ++
  edgeLines draft node .relates "Relates" ++
  edgeLines draft node .supersedes "Supersedes" ++
  if node.clientRef = draft.rootRef then
    [.plain [], .plain (lit "## Delivery checklist")] ++
    (sortBy (fun item : IssueNodeDraft => item.clientRef)
      (draft.nodes.filter fun item => item.parentRef = some draft.rootRef)).map
        fun item => .item item.clientRef item.title
  else []

/-- The body of a rendered node, its references shown as numbers. -/
def numberedNode (number : PyStr → PyStr) (node : IssueNodeDraft) (draft : IssueGraphDraft) :
    PyStr :=
  managedMarker node.clientRef ++ lit "\n\n" ++ rstrip node.body ++ lit "\n\n" ++
    PyStr.join (lit "\n")
      (graphIntentHeading :: (intentLines node draft).map (·.text number number)) ++ lit "\n"

/-- No line of the title but its first is a heading or holds a reference as a managed line does. -/
def Inert (title : PyStr) : Prop :=
  ∀ line ∈ (linesKept (title ++ newline)).tail,
    isHeading line = false ∧ managedRefs (content line) = []

instance (title : PyStr) : Decidable (Inert title) :=
  inferInstanceAs (Decidable (∀ line ∈ (linesKept (title ++ newline)).tail,
    isHeading line = false ∧ managedRefs (content line) = []))

end Wanted

section Scans

variable {number : PyStr → PyStr}

theorem tickedRef_none {c : CodePoint} {rest : PyStr} (other : c ≠ .scalar '\x60') :
    tickedRef c rest = none := if_neg fun found => other found.1

theorem scan_none {c : CodePoint} {rest : PyStr} (other : tickedRef c rest = none) :
    tickedRefs 0 (c :: rest) = tickedRefs 0 rest ∧
      subTicked number 0 (c :: rest) = c :: subTicked number 0 rest := by
  rw [tickedRefs, subTicked, other]
  exact ⟨rfl, rfl⟩

theorem scan_some {c : CodePoint} {rest ref : PyStr} (found : tickedRef c rest = some ref) :
    tickedRefs 0 (c :: rest) = ref :: tickedRefs (ref.length + 1) rest ∧
      subTicked number 0 (c :: rest) = number ref ++ subTicked number (ref.length + 1) rest := by
  rw [tickedRefs, subTicked, found]
  exact ⟨rfl, rfl⟩

theorem tickedRefs_append {text : PyStr} (rest : PyStr) (plain : .scalar '\x60' ∉ text) :
    tickedRefs 0 (text ++ rest) = tickedRefs 0 rest ∧
      subTicked number 0 (text ++ rest) = text ++ subTicked number 0 rest := by
  induction text with
  | nil => exact ⟨rfl, rfl⟩
  | cons c text ih =>
    have other := (List.ne_of_not_mem_cons plain).symm
    obtain ⟨refs, text'⟩ := ih (List.not_mem_of_not_mem_cons plain)
    obtain ⟨next, shown⟩ := @scan_none number c (text ++ rest) (tickedRef_none other)
    rw [List.cons_append, next, shown]
    exact ⟨refs, congrArg (c :: ·) text'⟩

theorem tickedRefs_skip (text rest : PyStr) :
    tickedRefs text.length (text ++ rest) = tickedRefs 0 rest ∧
      subTicked number text.length (text ++ rest) = subTicked number 0 rest := by
  induction text with
  | nil => exact ⟨rfl, rfl⟩
  | cons c text ih => exact ih

theorem isSafeRef_refChar {ref : PyStr} (safe : isSafeRef ref = true) :
    ∀ c ∈ ref, refChar c = true := by
  cases ref with
  | nil => cases safe
  | cons c rest =>
    simp only [isSafeRef, PyStr.firstThen, Bool.and_eq_true, List.all_eq_true] at safe
    intro d here
    rcases List.mem_cons.mp here with rfl | here
    · cases d with
      | scalar d =>
        exact (Bool.or_eq_true _ _).mpr (.inl safe.1.1)
      | surrogate n => cases safe.1.1
    · exact safe.1.2 d here

theorem takeWhile_ref {ref rest : PyStr} (safe : isSafeRef ref = true) {c : CodePoint}
    (stop : refChar c = false) : (ref ++ c :: rest).takeWhile refChar = ref := by
  rw [List.takeWhile_append_of_pos (isSafeRef_refChar safe), List.takeWhile_cons_of_neg
    (by rw [stop]; exact Bool.false_ne_true), List.append_nil]

theorem tickedRefs_ticked {ref : PyStr} (rest : PyStr) (safe : isSafeRef ref = true) :
    tickedRefs 0 (ticked ref ++ rest) = ref :: tickedRefs 0 rest ∧
      subTicked number 0 (ticked ref ++ rest) = number ref ++ subTicked number 0 rest := by
  have shape : ticked ref ++ rest = .scalar '\x60' :: ((ref ++ [.scalar '\x60']) ++ rest) := by
    simp [ticked, lit, PyStr.ofText]
  have found : tickedRef (.scalar '\x60') ((ref ++ [.scalar '\x60']) ++ rest) = some ref := by
    rw [tickedRef, List.append_assoc, List.singleton_append, takeWhile_ref safe rfl]
    refine if_pos ⟨rfl, safe, ?_⟩
    rw [List.drop_left]
    rfl
  obtain ⟨refs, text⟩ := @tickedRefs_skip number (ref ++ [.scalar '\x60']) rest
  rw [List.length_append, List.length_singleton] at refs text
  obtain ⟨first, shown⟩ := @scan_some number _ _ _ found
  rw [shape, first, shown]
  exact ⟨congrArg (ref :: ·) refs, congrArg (number ref ++ ·) text⟩

theorem tickedRefs_join {refs : List PyStr} (safe : ∀ ref ∈ refs, isSafeRef ref = true) :
    tickedRefs 0 (PyStr.join (lit ", ") (refs.map ticked)) = refs ∧
      subTicked number 0 (PyStr.join (lit ", ") (refs.map ticked)) =
        PyStr.join (lit ", ") (refs.map number) := by
  induction refs with
  | nil => exact ⟨rfl, rfl⟩
  | cons ref refs ih =>
    have here := safe ref List.mem_cons_self
    cases refs with
    | nil =>
      have one := @tickedRefs_ticked number ref [] here
      rw [List.append_nil] at one
      simpa [PyStr.join] using ⟨one.1, one.2.trans (List.append_nil _)⟩
    | cons next refs =>
      have apart : ∀ shown : PyStr → PyStr, PyStr.join (lit ", ") ((ref :: next :: refs).map shown) =
          shown ref ++ (lit ", " ++ PyStr.join (lit ", ") ((next :: refs).map shown)) := by
        intro shown
        simp [PyStr.join, List.intercalate]
      obtain ⟨found, text⟩ := ih fun other there => safe other (List.mem_cons_of_mem ref there)
      have comma := @tickedRefs_append number (lit ", ")
        (PyStr.join (lit ", ") ((next :: refs).map ticked)) (by decide)
      rw [apart ticked, apart number, (@tickedRefs_ticked number ref _ here).1,
        (@tickedRefs_ticked number ref _ here).2, comma.1, comma.2, found, text]
      exact ⟨rfl, rfl⟩

theorem subTicked_none {text : PyStr} (absent : tickedRefs 0 text = []) :
    subTicked number 0 text = text := by
  induction text with
  | nil => rfl
  | cons c text ih =>
    cases found : tickedRef c text with
    | some ref =>
      rw [(@scan_some number _ _ _ found).1] at absent
      cases absent
    | none =>
      obtain ⟨next, shown⟩ := @scan_none number _ _ found
      rw [next] at absent
      rw [shown, ih absent]

theorem subTicked_differs {text : PyStr} (present : tickedRefs 0 text ≠ [])
    (numbers : ∀ ref ∈ tickedRefs 0 text, ∃ digits, number ref = .scalar '#' :: digits) :
    Differs (subTicked number 0 text) text := by
  induction text with
  | nil => exact absurd rfl present
  | cons c text ih =>
    cases found : tickedRef c text with
    | none =>
      obtain ⟨next, shown⟩ := @scan_none number _ _ found
      rw [next] at present numbers
      rw [shown]
      exact (ih present numbers).after [c]
    | some ref =>
      obtain ⟨first, rest⟩ := @scan_some number _ _ _ found
      rw [first] at numbers
      obtain ⟨digits, shown⟩ := numbers ref List.mem_cons_self
      have tick : c = .scalar '\x60' := by
        by_contra other
        rw [tickedRef_none other] at found
        cases found
      rw [rest, shown, tick]
      exact ⟨[], .scalar '#', .scalar '\x60', digits ++ subTicked number (ref.length + 1) text, text,
        rfl, rfl, by decide⟩

end Scans

section Lines

variable {number : PyStr → PyStr} {declared : List PyStr}

theorem withNumbers_none {text : PyStr} (absent : managedRefs text = []) :
    withNumbers number text = text := by
  unfold managedRefs at absent
  unfold withNumbers
  split at absent
  · rw [if_pos (by assumption), subTicked_none absent]
  · rw [if_neg (by assumption)]
    cases found : checklistRef text with
    | none => rfl
    | some ref =>
      rw [found] at absent
      cases absent

theorem withNumbers_differs {text : PyStr} (present : managedRefs text ≠ [])
    (numbers : ∀ ref ∈ managedRefs text, ∃ digits, number ref = .scalar '#' :: digits) :
    Differs (withNumbers number text) text := by
  unfold managedRefs at present numbers
  unfold withNumbers
  split at present
  · rw [if_pos (by assumption)] at numbers ⊢
    exact subTicked_differs present numbers
  · rw [if_neg (by assumption)] at numbers ⊢
    cases found : checklistRef text with
    | none =>
      rw [found] at present
      exact absurd rfl present
    | some ref =>
      rw [found] at numbers
      obtain ⟨digits, shown⟩ := numbers ref List.mem_cons_self
      dsimp only
      unfold checklistRef at found
      dsimp only at found
      split at found
      · rename_i shape
        cases found
        obtain ⟨rest, rfl⟩ := List.isPrefixOf_iff_prefix.mp shape.1
        rw [List.drop_left] at shape shown ⊢
        rw [shown, List.append_assoc]
        refine Differs.after ?_ itemMark
        cases rest with
        | nil => cases shape.2.1
        | cons c rest =>
          refine ⟨[], .scalar '#', c, _, rest, rfl, rfl, ?_⟩
          rintro rfl
          cases shape.2.1
      · cases found

theorem content_append {text : PyStr} {c : CodePoint} (solid : lineEnd c = false) (rest : PyStr) :
    content (text ++ [c] ++ rest) = text ++ [c] ++ content rest ∧
      ending (text ++ [c] ++ rest) = ending rest := by
  have kept : content (text ++ [c] ++ rest) = text ++ [c] ++ content rest := by
    unfold content List.rdropWhile
    rw [List.reverse_append, List.dropWhile_append]
    split
    · rename_i empty
      rw [List.isEmpty_iff] at empty
      rw [empty, List.reverse_append, List.reverse_singleton, List.singleton_append,
        List.dropWhile_cons_of_neg (by rw [solid]; exact Bool.false_ne_true)]
      simp
    · rw [List.reverse_append, List.reverse_reverse]
  refine ⟨kept, ?_⟩
  rw [ending, kept, List.length_append, ← List.drop_drop, List.drop_left, ending]

theorem content_ending (line : PyStr) : content line ++ ending line = line :=
  List.prefix_iff_eq_append.mp (List.rdropWhile_prefix lineEnd line)

theorem managedLine_none {line : PyStr} (absent : managedRefs (content line) = []) :
    managedLine number line = line := by
  rw [managedLine, withNumbers_none absent, content_ending]

theorem managedLine_differs {line : PyStr} (present : managedRefs (content line) ≠ [])
    (numbers : ∀ ref ∈ managedRefs (content line), ∃ digits, number ref = .scalar '#' :: digits) :
    Differs (managedLine number line) line := by
  have differs := (withNumbers_differs present numbers).before (ending line) (ending line)
  rw [content_ending] at differs
  exact differs

theorem refChar_unbroken {c : CodePoint} (inside : refChar c = true) :
    c.within PyText.isLineBreak = false := by
  cases c with
  | surrogate n => rfl
  | scalar c =>
    by_contra broken
    have code : c.toNat ∈ [10, 11, 12, 13, 28, 29, 30, 0x85, 0x2028, 0x2029] :=
      List.contains_iff_mem.mp (Bool.eq_true_of_not_eq_false broken)
    have breaks : ∀ n ∈ [10, 11, 12, 13, 28, 29, 30, 0x85, 0x2028, 0x2029],
        refChar (.scalar (Char.ofNat n)) = false := by decide
    have outside := breaks c.toNat code
    rw [Char.ofNat_toNat, inside] at outside
    cases outside

theorem ref_unbroken {ref : PyStr} (safe : isSafeRef ref = true) :
    ∀ c ∈ ref, c.within PyText.isLineBreak = false :=
  fun c here => refChar_unbroken (isSafeRef_refChar safe c here)

theorem linesKept_newline {text : PyStr}
    (unbroken : ∀ c ∈ text, c.within PyText.isLineBreak = false) :
    linesKept (text ++ newline) = [text ++ newline] := by
  obtain ⟨first, later, lines, whole⟩ :=
    PyStr.linesKept_unbroken unbroken (List.cons_ne_nil (.scalar '\n') [])
  rw [newline, whole]
  cases lines
  rfl

theorem content_newline {text : PyStr}
    (unbroken : ∀ c ∈ text, c.within PyText.isLineBreak = false) :
    content (text ++ newline) = text ∧ ending (text ++ newline) = newline := by
  rcases List.eq_nil_or_concat' text with rfl | ⟨front, c, rfl⟩
  · exact ⟨rfl, rfl⟩
  · have solid : lineEnd c = false := by
      by_contra ends
      have plain := unbroken c (by simp)
      simp only [lineEnd, Bool.not_eq_false, Bool.or_eq_true, decide_eq_true_eq] at ends
      rcases ends with rfl | rfl <;> cases plain
    have kept := @content_append front c solid newline
    rw [show content newline = [] from rfl, List.append_nil] at kept
    exact kept

end Lines

namespace GraphLine

variable {number : PyStr → PyStr} {declared : List PyStr} {line : GraphLine}

theorem references_unbroken {label : String} {refs : List PyStr}
    (fits : (references label refs).Fits declared) :
    ∀ c ∈ (references label refs).text ticked id, c.within PyText.isLineBreak = false := by
  obtain ⟨labels, safe⟩ := fits
  have named : ∀ label ∈ ["Parent", "Blocked by", "Relates", "Supersedes"],
      ∀ c ∈ lit label ++ lit ": ", c.within PyText.isLineBreak = false := by decide
  intro c here
  rcases List.mem_append.mp here with here | here
  · exact named label labels c here
  rcases PyStr.mem_join here with comma | ⟨part, there, inside⟩
  · have solid : ∀ d ∈ lit ", ", d.within PyText.isLineBreak = false := by decide
    exact solid c comma
  · obtain ⟨ref, listed, rfl⟩ := List.mem_map.mp there
    simp only [ticked, List.mem_append] at inside
    rcases inside with (tick | inside) | tick
    · rw [List.mem_singleton.mp tick]
      rfl
    · exact ref_unbroken (safe ref listed).1 c inside
    · rw [List.mem_singleton.mp tick]
      rfl

theorem item_unbroken {ref : PyStr} (safe : isSafeRef ref = true) :
    ∀ c ∈ itemMark ++ ref ++ lit " — ", c.within PyText.isLineBreak = false := by
  intro c here
  simp only [List.mem_append] at here
  rcases here with (here | here) | here
  · revert c
    decide
  · exact ref_unbroken safe c here
  · revert c
    decide

theorem linesKept_text (fits : line.Fits declared) :
    linesKept (line.text ticked id ++ newline) = line.first :: line.later := by
  cases line with
  | plain text =>
    simp only [Fits, List.mem_cons, List.not_mem_nil, or_false] at fits
    rcases fits with rfl | rfl <;> rfl
  | references label refs => exact linesKept_newline (references_unbroken fits)
  | item ref title =>
    obtain ⟨first, later, lines, whole⟩ := PyStr.linesKept_unbroken (item_unbroken fits.1)
      (List.append_ne_nil_of_right_ne_nil title (List.cons_ne_nil (.scalar '\n') []))
    rw [GraphLine.first, GraphLine.later, newline, lines]
    rw [← List.append_assoc] at whole
    exact whole

theorem references_managed {label : String} {refs : List PyStr}
    (fits : (references label refs).Fits declared) :
    managedRefs ((references label refs).text ticked id) = refs ∧
      withNumbers number ((references label refs).text ticked id) =
        (references label refs).text number number := by
  obtain ⟨labels, safe⟩ := fits
  have plain : ∀ label ∈ ["Parent", "Blocked by", "Relates", "Supersedes"],
      CodePoint.scalar '\x60' ∉ lit label ++ lit ": " := by decide
  have named : isReferenceLine ((references label refs).text ticked id) = true := by
    simp only [List.mem_cons, List.not_mem_nil, or_false] at labels
    rcases labels with rfl | rfl | rfl | rfl <;> rfl
  obtain ⟨found, shown⟩ := @tickedRefs_append number _ (PyStr.join (lit ", ") (refs.map ticked))
    (plain label labels)
  obtain ⟨joined, numbers⟩ := @tickedRefs_join number refs fun ref here => (safe ref here).1
  rw [managedRefs, withNumbers, if_pos named, if_pos named, text, found, shown, joined, numbers]
  exact ⟨rfl, rfl⟩

theorem item_managed {ref : PyStr} (rest : PyStr) (safe : isSafeRef ref = true) :
    managedRefs (itemMark ++ ref ++ lit " — " ++ rest) = [ref] ∧
      withNumbers number (itemMark ++ ref ++ lit " — " ++ rest) =
        itemMark ++ number ref ++ lit " — " ++ rest := by
  have other : isReferenceLine (itemMark ++ ref ++ lit " — " ++ rest) = false := rfl
  have shape : itemMark ++ ref ++ lit " — " ++ rest = itemMark ++ (ref ++ (lit " — " ++ rest)) := by
    simp
  have found : checklistRef (itemMark ++ ref ++ lit " — " ++ rest) = some ref := by
    rw [shape, checklistRef, List.drop_left]
    have taken : (ref ++ (lit " — " ++ rest)).takeWhile refChar = ref := takeWhile_ref safe rfl
    rw [taken, List.drop_left]
    exact if_pos ⟨rfl, safe, rfl⟩
  rw [managedRefs, withNumbers, other, if_neg Bool.false_ne_true, if_neg Bool.false_ne_true, found]
  refine ⟨rfl, ?_⟩
  dsimp only
  rw [shape, ← List.drop_drop, List.drop_left, List.drop_left]
  simp

theorem content_item (ref title : PyStr) :
    content (item ref title).first =
        itemMark ++ ref ++ lit " — " ++ content ((linesKept (title ++ newline)).headD []) ∧
      ending (item ref title).first = ending ((linesKept (title ++ newline)).headD []) := by
  have dash : lit " — " = lit " —" ++ [.scalar ' '] := rfl
  rw [first, dash, ← List.append_assoc]
  exact content_append rfl _

/-- Materialising the first line is all that there is to do. -/
theorem managedLine_first (fits : line.Fits declared) :
    managedLine number line.first ++ line.later.flatten = line.text number number ++ newline := by
  cases line with
  | plain text =>
    simp only [Fits, List.mem_cons, List.not_mem_nil, or_false] at fits
    rcases fits with rfl | rfl <;> rfl
  | references label refs =>
    have kept := content_newline (references_unbroken fits)
    change managedLine number ((references label refs).text ticked id ++ newline) ++ [] = _
    rw [List.append_nil, managedLine, kept.1, kept.2, (references_managed fits).2]
  | item ref title =>
    have whole := PyStr.linesKept_flatten (title ++ newline)
    have lines : ∃ head tail, linesKept (title ++ newline) = head :: tail := by
      refine List.exists_cons_of_ne_nil fun empty => ?_
      rw [empty] at whole
      exact List.append_ne_nil_of_right_ne_nil title (List.cons_ne_nil _ []) whole.symm
    obtain ⟨head, tail, lines⟩ := lines
    rw [managedLine, (content_item ref title).1, (content_item ref title).2,
      (item_managed _ fits.1).2, later, text]
    rw [lines] at whole ⊢
    rw [List.headD_cons, List.tail_cons, List.append_assoc _ (content head), content_ending,
      List.append_assoc, ← List.flatten_cons, whole]
    simp

theorem refs_first (fits : line.Fits declared) :
    ∀ ref ∈ managedRefs (content line.first), ref ∈ declared := by
  intro ref here
  cases line with
  | plain text =>
    simp only [Fits, List.mem_cons, List.not_mem_nil, or_false] at fits
    rcases fits with rfl | rfl <;> cases here
  | references label refs =>
    change ref ∈ managedRefs (content (_ ++ newline)) at here
    rw [(content_newline (references_unbroken fits)).1, (@references_managed id _ _ _ fits).1] at here
    exact (fits.2 ref here).2
  | item ref' title =>
    rw [(content_item ref' title).1, (@item_managed id _ _ fits.1).1] at here
    rw [List.mem_singleton.mp here]
    exact fits.2

theorem isHeading_first (fits : line.Fits declared) : isHeading line.first = false := by
  refine decide_eq_false fun same => ?_
  cases line with
  | plain text =>
    simp only [Fits, List.mem_cons, List.not_mem_nil, or_false] at fits
    rcases fits with rfl | rfl <;> exact absurd same (by decide)
  | references label refs =>
    change content (_ ++ newline) = _ at same
    rw [(content_newline (references_unbroken fits)).1] at same
    have head := congrArg List.head? same
    obtain ⟨labels, -⟩ := fits
    simp only [List.mem_cons, List.not_mem_nil, or_false] at labels
    rcases labels with rfl | rfl | rfl | rfl <;> cases head
  | item ref title =>
    rw [(content_item ref title).1] at same
    cases congrArg List.head? same

end GraphLine

section Materialized

variable {mapping : Numbers} {stepId : Option PyStr} {front post : List PyStr} {heading : PyStr}

theorem managedFrom_eq (last : isHeading heading = true)
    (none : ∀ line ∈ post, isHeading line = false) :
    managedFrom (front ++ heading :: post) = front.length := by
  have found : (front ++ heading :: post).reverse.findIdx? isHeading = some post.length := by
    rw [List.reverse_append, List.reverse_cons, List.append_assoc, List.findIdx?_append,
      List.findIdx?_eq_none_iff.mpr fun line here => none line (List.mem_reverse.mp here),
      List.singleton_append, List.findIdx?_cons, last]
    simp
  rw [managedFrom, found]
  simp

/-- What is done to a body with these lines, of which the last heading is known. -/
theorem materialize_eq {body : PyStr} (lines : linesKept body = front ++ heading :: post)
    (last : isHeading heading = true) (none : ∀ line ∈ post, isHeading line = false)
    {text : PyStr} : materializeIssueGraphBody body mapping stepId = .ok text ↔
      (∀ line ∈ heading :: post, ∀ ref ∈ managedRefs (content line),
        issueNumber mapping ref ≠ Option.none) ∧
      text = front.flatten ++ ((heading :: post).map (managedLine (numberOf mapping))).flatten := by
  rw [materializeIssueGraphBody, lines, managedFrom_eq last none, List.drop_left, List.take_left]
  split
  · rename_i unresolved
    refine iff_of_false nofun fun both => unresolved ?_
    rw [List.filter_eq_nil_iff]
    intro ref here
    obtain ⟨line, listed, inside⟩ := List.mem_flatMap.mp here
    simpa using both.1 line listed ref inside
  · rename_i resolved
    rw [not_not, List.filter_eq_nil_iff] at resolved
    constructor
    · intro same
      cases same
      refine ⟨fun line here ref inside => ?_, rfl⟩
      simpa using resolved ref (List.mem_flatMap.mpr ⟨line, here, inside⟩)
    · rintro ⟨-, rfl⟩
      rfl

theorem exists_last_heading {α : Type} {p : α → Bool} {items : List α}
    (one : ∃ x ∈ items, p x = true) :
    ∃ before x after, items = before ++ x :: after ∧ p x = true ∧ ∀ y ∈ after, p y = false := by
  induction items with
  | nil =>
    obtain ⟨x, here, -⟩ := one
    cases here
  | cons x items ih =>
    by_cases more : ∃ y ∈ items, p y = true
    · obtain ⟨before, y, after, rfl, here, last⟩ := ih more
      exact ⟨x :: before, y, after, rfl, here, last⟩
    · have last : ∀ y ∈ items, p y = false := fun y here =>
        Bool.eq_false_of_not_eq_true fun found => more ⟨y, here, found⟩
      obtain ⟨y, here, found⟩ := one
      rcases List.mem_cons.mp here with rfl | here
      · exact ⟨[], y, items, rfl, found, last⟩
      · exact absurd ⟨y, here, found⟩ more

end Materialized

section Intent

variable {draft : IssueGraphDraft} {node : IssueNodeDraft} {number : PyStr → PyStr}

theorem graphLines_eq (node : IssueNodeDraft) (draft : IssueGraphDraft) : graphLines node draft =
    graphIntentHeading :: (intentLines node draft).map (·.text ticked id) := by
  have edges : ∀ kind label, edgeLine draft node kind label =
      (edgeLines draft node kind label).map (·.text ticked id) := by
    intro kind label
    unfold edgeLine edgeLines
    dsimp only
    split <;> rfl
  have parent : (node.parentRef.toList.map fun parent => lit "Parent: " ++ ticked parent) =
      (node.parentRef.toList.map fun parent => GraphLine.references "Parent" [parent]).map
        (·.text ticked id) := by
    cases node.parentRef with
    | none => rfl
    | some parent =>
      simp only [Option.toList_some, List.map_cons, List.map_nil, GraphLine.text, PyStr.join,
        List.intercalate_singleton]
      rfl
  have items : (checklist draft) = ((sortBy (fun item : IssueNodeDraft => item.clientRef)
      (draft.nodes.filter fun item => item.parentRef = some draft.rootRef)).map
        fun item => GraphLine.item item.clientRef item.title).map (·.text ticked id) := by
    rw [checklist, List.map_map]
    rfl
  rw [graphLines, intentLines, edges, edges, edges, parent, items]
  simp only [List.map_append, List.append_assoc]
  split <;> rfl

theorem intentLines_fits (accepted : validateGraph draft = []) (here : node ∈ draft.nodes) :
    ∀ line ∈ intentLines node draft, line.Fits (refs draft) := by
  have edges : ∀ kind label, label ∈ ["Parent", "Blocked by", "Relates", "Supersedes"] →
      ∀ line ∈ edgeLines draft node kind label, line.Fits (refs draft) := by
    intro kind label labels line listed
    unfold edgeLines at listed
    split at listed
    · cases listed
    · rw [List.mem_singleton.mp listed]
      refine ⟨labels, fun ref target => ?_⟩
      simp only [edgeTargets, List.mem_insertionSort, List.mem_map, List.mem_filter] at target
      obtain ⟨edge, ⟨there, -⟩, rfl⟩ := target
      exact ⟨edge.checked.2, (edge_declared accepted there).2⟩
  intro line listed
  simp only [intentLines, List.mem_append] at listed
  rcases listed with (((parent | blocked) | relates) | supersedes) | root
  · obtain ⟨ref, has, rfl⟩ := List.mem_map.mp parent
    rw [Option.mem_toList] at has
    refine ⟨by decide, fun other same => ?_⟩
    rw [List.mem_singleton.mp same]
    exact ⟨node.checked.2.2.2.2.1 ref has, parent_declared accepted here has⟩
  · exact edges _ _ (by decide) line blocked
  · exact edges _ _ (by decide) line relates
  · exact edges _ _ (by decide) line supersedes
  · split at root
    · rcases List.mem_append.mp root with plain | item
      · simp only [List.mem_cons, List.not_mem_nil, or_false] at plain
        rcases plain with rfl | rfl <;> simp [GraphLine.Fits]
      · obtain ⟨child, there, rfl⟩ := List.mem_map.mp item
        rw [mem_sortBy, List.mem_filter] at there
        exact ⟨child.checked.1, List.mem_map_of_mem there.1⟩
    · cases root

/-- The lines of a graph line, marked where they are managed. -/
def GraphLine.marked (line : GraphLine) : List (Bool × PyStr) :=
  (true, line.first) :: line.later.map (false, ·)

/-- What is wanted of a line. -/
def wanted (number : PyStr → PyStr) (line : Bool × PyStr) : PyStr :=
  if line.1 then managedLine number line.2 else line.2

/-- The lines ahead of the heading. -/
def frontLines (node : IssueNodeDraft) : List PyStr :=
  linesKept (managedMarker node.clientRef ++ lit "\n\n" ++ rstrip node.body ++ newline ++ newline)

def markedLines (node : IssueNodeDraft) (draft : IssueGraphDraft) : List (Bool × PyStr) :=
  (intentLines node draft).flatMap GraphLine.marked

theorem joined_lines (texts : List PyStr) :
    PyStr.join (lit "\n") (graphIntentHeading :: texts) ++ lit "\n" =
      (graphIntentHeading :: texts).flatMap (· ++ newline) :=
  PyStr.join_newline (List.cons_ne_nil _ texts)

theorem linesKept_renderNode (fits : ∀ line ∈ intentLines node draft, line.Fits (refs draft)) :
    linesKept (renderNode node draft) =
      frontLines node ++ (graphIntentHeading ++ newline) :: (markedLines node draft).map (·.2) := by
  have shape : renderNode node draft =
      managedMarker node.clientRef ++ lit "\n\n" ++ rstrip node.body ++ newline ++ newline ++
        (graphIntentHeading :: (intentLines node draft).map (·.text ticked id)).flatMap
          (· ++ newline) := by
    rw [renderNode, graphLines_eq, List.append_assoc _ _ (lit "\n"), joined_lines,
      List.append_assoc _ newline newline]
    rfl
  have heading : linesKept (graphIntentHeading ++ newline) = [graphIntentHeading ++ newline] := rfl
  rw [shape, linesKept, PyStr.linesKeptFrom_newline, PyStr.linesKept_flatMap, List.flatMap_cons,
    heading, List.singleton_append, List.flatMap_map, markedLines, List.map_flatMap]
  refine congrArg (frontLines node ++ _ :: ·) (List.flatMap_congr fun line here => ?_)
  rw [GraphLine.linesKept_text (fits line here), GraphLine.marked, List.map_cons, List.map_map]
  exact congrArg (_ :: ·) (List.map_id _).symm

theorem numberedNode_eq (fits : ∀ line ∈ intentLines node draft, line.Fits (refs draft)) :
    numberedNode number node draft = (frontLines node).flatten ++ (graphIntentHeading ++ newline ++
      ((markedLines node draft).map (wanted number)).flatten) := by
  have line_eq : ∀ line ∈ intentLines node draft,
      line.text number number ++ newline = (line.marked.map (wanted number)).flatten := by
    intro line here
    rw [← GraphLine.managedLine_first (fits line here), GraphLine.marked, List.map_cons,
      List.flatten_cons, List.map_map]
    exact congrArg (_ ++ List.flatten ·) (List.map_id _).symm
  have lines_eq : ((intentLines node draft).map (·.text number number)).flatMap (· ++ newline) =
      ((markedLines node draft).map (wanted number)).flatten := by
    rw [List.flatMap_map, markedLines, List.map_flatMap, List.flatten_eq_flatMap,
      List.flatMap_assoc]
    refine List.flatMap_congr fun line here => ?_
    rw [line_eq line here, List.flatten_eq_flatMap]
  rw [numberedNode, List.append_assoc _ _ (lit "\n"), joined_lines, List.flatMap_cons, lines_eq,
    frontLines, PyStr.linesKept_flatten, List.append_assoc _ newline newline]
  rfl

end Intent

section Whole

variable {draft : IssueGraphDraft} {node : IssueNodeDraft} {mapping : Numbers}
  {number : PyStr → PyStr}

/-- Every reference of the draft has a positive number. -/
def Complete (draft : IssueGraphDraft) (mapping : Numbers) : Prop :=
  ∀ ref ∈ refs draft, ∃ n, mapping ref = some n ∧ 0 < n

theorem numberOf_digits {ref : PyStr} (resolved : issueNumber mapping ref ≠ none) :
    ∃ digits, numberOf mapping ref = .scalar '#' :: digits := by
  rw [numberOf]
  cases found : issueNumber mapping ref with
  | none => exact absurd found resolved
  | some n => exact ⟨Json.ofInt n, rfl⟩

theorem Complete.resolved (complete : Complete draft mapping) {ref : PyStr}
    (here : ref ∈ refs draft) : issueNumber mapping ref ≠ none := by
  obtain ⟨n, found, positive⟩ := complete ref here
  simp [issueNumber, found, positive]

theorem marked_later {line : GraphLine} {text : PyStr} (here : (false, text) ∈ line.marked) :
    text ∈ line.later := by
  simpa [GraphLine.marked] using here

/-- Before a line of a title there is the managed line that it belongs to. -/
theorem marked_before {lines : List GraphLine} {before after : List (Bool × PyStr)} {text : PyStr}
    (split : lines.flatMap GraphLine.marked = before ++ (false, text) :: after) :
    ∃ line ∈ lines, text ∈ line.later ∧ (true, line.first) ∈ before := by
  induction lines generalizing before with
  | nil => exact absurd split.symm (by simp)
  | cons line lines ih =>
    rw [List.flatMap_cons] at split
    rcases List.append_eq_append_iff.mp split with ⟨more, rfl, rest⟩ | ⟨more, own, rest⟩
    · obtain ⟨other, here, inside, first⟩ := ih rest
      exact ⟨other, List.mem_cons_of_mem line here, inside, List.mem_append_right _ first⟩
    · cases before with
      | nil =>
        cases more with
        | nil =>
          obtain ⟨other, here, inside, first⟩ := @ih [] rest.symm
          cases first
        | cons x more =>
          rw [List.nil_append] at own
          cases own
          cases rest
      | cons x before =>
        have same := congrArg List.head? own
        cases same
        cases more with
        | nil =>
          obtain ⟨other, here, inside, first⟩ := @ih [] rest.symm
          cases first
        | cons y more =>
          cases rest
          have inside : (false, text) ∈ line.marked := by
            rw [own]
            simp
          exact ⟨line, List.mem_cons_self, marked_later inside, List.mem_cons_self⟩

theorem later_iff {p : PyStr → Prop} :
    (∀ line ∈ intentLines node draft, ∀ text ∈ line.later, p text) ↔
    (node.clientRef = draft.rootRef → ∀ child ∈ draft.nodes, child.parentRef = some draft.rootRef →
      ∀ text ∈ (linesKept (child.title ++ newline)).tail, p text) := by
  constructor
  · intro every root child here parent
    refine every (.item child.clientRef child.title) (List.mem_append_right _ ?_)
    rw [if_pos root]
    refine List.mem_append_right _ (List.mem_map.mpr ⟨child, ?_, rfl⟩)
    rw [mem_sortBy, List.mem_filter]
    exact ⟨here, decide_eq_true parent⟩
  · intro every line listed text later
    have edges : ∀ kind label, line ∉ edgeLines draft node kind label := by
      intro kind label inside
      unfold edgeLines at inside
      split at inside
      · cases inside
      · rw [List.mem_singleton.mp inside] at later
        cases later
    simp only [intentLines, List.mem_append, edges, or_false] at listed
    rcases listed with parent | root
    · obtain ⟨ref, -, rfl⟩ := List.mem_map.mp parent
      cases later
    · split at root
      · rename_i own
        rcases List.mem_append.mp root with plain | item
        · simp only [List.mem_cons, List.not_mem_nil, or_false] at plain
          rcases plain with rfl | rfl <;> cases later
        · obtain ⟨child, there, rfl⟩ := List.mem_map.mp item
          rw [mem_sortBy, List.mem_filter] at there
          exact every own child there.1 (of_decide_eq_true there.2) text later
      · cases root

/-- A title that goes on after its first line is an item's, whose first line is managed. -/
theorem managedRefs_first {declared : List PyStr} {line : GraphLine} (fits : line.Fits declared)
    {text : PyStr} (later : text ∈ line.later) : managedRefs (content line.first) ≠ [] := by
  cases line with
  | plain text => cases later
  | references label refs => cases later
  | item ref title =>
    rw [(GraphLine.content_item ref title).1, (@GraphLine.item_managed id _ _ fits.1).1]
    exact List.cons_ne_nil ref []

theorem managedLine_differs_iff {line : PyStr}
    (resolved : ∀ ref ∈ managedRefs (content line), issueNumber mapping ref ≠ none) :
    (managedRefs (content line) = [] ∧ managedLine (numberOf mapping) line = line) ∨
      (managedRefs (content line) ≠ [] ∧ Differs (managedLine (numberOf mapping) line) line) := by
  by_cases absent : managedRefs (content line) = []
  · exact .inl ⟨absent, managedLine_none absent⟩
  · exact .inr ⟨absent, managedLine_differs absent fun ref here => numberOf_digits (resolved ref here)⟩

theorem marked_cases {x : Bool × PyStr} (listed : x ∈ markedLines node draft) :
    ∃ line ∈ intentLines node draft, x = (true, line.first) ∨ x.1 = false ∧ x.2 ∈ line.later := by
  obtain ⟨line, there, inside⟩ := List.mem_flatMap.mp listed
  refine ⟨line, there, ?_⟩
  rcases List.mem_cons.mp inside with rfl | later
  · exact .inl rfl
  · obtain ⟨text, theirs, rfl⟩ := List.mem_map.mp later
    exact .inr ⟨rfl, theirs⟩

theorem marked_own (accepted : validateGraph draft = []) (here : node ∈ draft.nodes)
    (complete : Complete draft mapping) {x : Bool × PyStr} (listed : x ∈ markedLines node draft)
    (own : x.1 = true) : isHeading x.2 = false ∧
      ∀ ref ∈ managedRefs (content x.2), issueNumber mapping ref ≠ none := by
  obtain ⟨line, there, rfl | ⟨theirs, -⟩⟩ := marked_cases listed
  · have fits := intentLines_fits accepted here line there
    exact ⟨GraphLine.isHeading_first fits, fun ref found =>
      complete.resolved (GraphLine.refs_first fits ref found)⟩
  · rw [theirs] at own
    cases own

theorem heading_marked : isHeading (graphIntentHeading ++ newline) = true := by decide

theorem managedLine_heading :
    managedLine number (graphIntentHeading ++ newline) = graphIntentHeading ++ newline := rfl

variable {stepId : Option PyStr}

/-- Were a line of a title a heading, the references before it would be left. -/
theorem no_later_heading (accepted : validateGraph draft = []) (here : node ∈ draft.nodes)
    (complete : Complete draft mapping)
    (same : materializeIssueGraphBody (renderNode node draft) mapping stepId =
      .ok (numberedNode (numberOf mapping) node draft)) :
    ∀ x ∈ markedLines node draft, isHeading x.2 = false := by
  have fits := intentLines_fits accepted here
  by_contra one
  simp only [not_forall, Bool.not_eq_false, exists_prop] at one
  obtain ⟨before, ⟨managed, text⟩, after, split, found, others⟩ := exists_last_heading one
  have inside : ∀ x ∈ before, x ∈ markedLines node draft := fun x first => by
    rw [split]
    exact List.mem_append_left _ first
  have theirs : managed = false := by
    by_contra own
    have listed : (managed, text) ∈ markedLines node draft := by simp [split]
    have quiet := (marked_own accepted here complete listed (by simpa using own)).1
    rw [found] at quiet
    cases quiet
  subst theirs
  obtain ⟨line, there, later, first⟩ := marked_before split
  have differs : Differs (before.map (·.2)).flatten
      (before.map (wanted (numberOf mapping))).flatten := by
    refine Differs.flatten (fun x listed => ?_) ⟨(true, line.first), first, ?_⟩
    · by_cases own : x.1 = true
      · have resolved := (marked_own accepted here complete (inside x listed) own).2
        rw [wanted, if_pos own]
        rcases managedLine_differs_iff resolved with ⟨-, kept⟩ | ⟨-, changed⟩
        · exact .inl kept.symm
        · exact .inr changed.symm
      · exact .inl (by rw [wanted, if_neg own])
    · have resolved := (marked_own accepted here complete (inside _ first) rfl).2
      exact (managedLine_differs (managedRefs_first (fits line there) later) fun ref listed =>
        numberOf_digits (resolved ref listed)).symm.ne
  have parts : linesKept (renderNode node draft) =
      (frontLines node ++ (graphIntentHeading ++ newline) :: before.map (·.2)) ++
        text :: after.map (·.2) := by
    rw [linesKept_renderNode fits, split]
    simp
  obtain ⟨-, whole⟩ := (materialize_eq parts found (List.forall_mem_map.mpr others)).mp same
  rw [numberedNode_eq fits, split, List.map_append, List.flatten_append, List.flatten_append,
    List.flatten_cons] at whole
  simp only [List.append_assoc] at whole
  have rest := List.append_cancel_left (List.append_cancel_left (List.append_cancel_left whole))
  exact absurd rest.symm (differs.before _ _).ne

/-- Were there a reference in a managed line of a title, the line would be changed. -/
theorem no_later_reference (accepted : validateGraph draft = []) (here : node ∈ draft.nodes)
    (last : ∀ x ∈ markedLines node draft, isHeading x.2 = false)
    (same : materializeIssueGraphBody (renderNode node draft) mapping stepId =
      .ok (numberedNode (numberOf mapping) node draft)) {text : PyStr}
    (listed : (false, text) ∈ markedLines node draft) : managedRefs (content text) = [] := by
  have fits := intentLines_fits accepted here
  obtain ⟨resolved, whole⟩ := (materialize_eq (linesKept_renderNode fits) heading_marked
    (List.forall_mem_map.mpr last)).mp same
  have known : ∀ x ∈ markedLines node draft, ∀ ref ∈ managedRefs (content x.2),
      issueNumber mapping ref ≠ none :=
    fun x found => resolved x.2 (List.mem_cons_of_mem _ (List.mem_map_of_mem found))
  by_contra present
  have differs : Differs
      ((markedLines node draft).map fun x => managedLine (numberOf mapping) x.2).flatten
      ((markedLines node draft).map (wanted (numberOf mapping))).flatten := by
    refine Differs.flatten (fun x found => ?_) ⟨(false, text), listed, ?_⟩
    · rcases managedLine_differs_iff (known x found) with ⟨-, kept⟩ | ⟨-, changed⟩
      · exact .inl (by rw [wanted, kept, ite_self])
      · unfold wanted
        split
        · exact .inl rfl
        · exact .inr changed
    · exact (managedLine_differs present fun ref found =>
        numberOf_digits (known _ listed ref found)).ne
  rw [numberedNode_eq fits, List.map_cons, List.flatten_cons, managedLine_heading,
    List.map_map] at whole
  exact differs.ne (List.append_cancel_left (List.append_cancel_left whole)).symm

/-- Only the managed references are replaced, by their numbers, exactly if the node is not the root
or the titles of its children are inert. -/
theorem bodies_materialized (draft : IssueGraphDraft) (node : IssueNodeDraft) (mapping : Numbers)
    (stepId : Option PyStr) (accepted : validateGraph draft = []) (here : node ∈ draft.nodes)
    (complete : Complete draft mapping) :
    materializeIssueGraphBody (renderNode node draft) mapping stepId =
        .ok (numberedNode (numberOf mapping) node draft) ↔
      (node.clientRef = draft.rootRef → ∀ child ∈ draft.nodes,
        child.parentRef = some draft.rootRef → Inert child.title) := by
  have fits := intentLines_fits accepted here
  refine Iff.trans ?_ (later_iff (p := fun text =>
    isHeading text = false ∧ managedRefs (content text) = []))
  constructor
  · intro same line there text later
    have listed : (false, text) ∈ markedLines node draft :=
      List.mem_flatMap.mpr ⟨line, there, by simpa [GraphLine.marked] using later⟩
    have last := no_later_heading accepted here complete same
    exact ⟨last _ listed, no_later_reference accepted here last same listed⟩
  · intro quiet
    have still : ∀ x ∈ markedLines node draft, x.1 ≠ true →
        isHeading x.2 = false ∧ managedRefs (content x.2) = [] := by
      intro x listed other
      obtain ⟨line, there, rfl | ⟨-, later⟩⟩ := marked_cases listed
      · exact absurd rfl other
      · exact quiet line there x.2 later
    refine (materialize_eq (linesKept_renderNode fits) heading_marked
      (List.forall_mem_map.mpr fun x listed => ?_)).mpr ⟨?_, ?_⟩
    · by_cases own : x.1 = true
      · exact (marked_own accepted here complete listed own).1
      · exact (still x listed own).1
    · intro line listed ref inside
      rcases List.mem_cons.mp listed with rfl | listed
      · cases inside
      obtain ⟨x, there, rfl⟩ := List.mem_map.mp listed
      by_cases own : x.1 = true
      · exact (marked_own accepted here complete there own).2 ref inside
      · rw [(still x there own).2] at inside
        cases inside
    · have same : (markedLines node draft).map (wanted (numberOf mapping)) =
          (markedLines node draft).map fun x => managedLine (numberOf mapping) x.2 := by
        refine List.map_congr_left fun x listed => ?_
        by_cases own : x.1 = true
        · rw [wanted, if_pos own]
        · rw [wanted, if_neg own, managedLine_none (still x listed own).2]
      rw [numberedNode_eq fits, List.map_cons, List.flatten_cons, managedLine_heading, List.map_map,
        same]
      rfl

end Whole

section Sample

def titledFields (ref title : PyStr) (parent : Option PyStr) : NodeFields where
  clientRef := ref
  title := title
  ticketType := lit "task"
  priority := lit "p1"
  status := lit "planned"
  parentRef := parent
  body := lit "## Objective\n## Acceptance criteria\n## RepoForge graph intent\nRelates: \x60x\x60"

def rootNode : IssueNodeDraft where
  toNodeFields := titledFields (lit "b") (lit "B") none
  constructed := by decide +kernel

/-- A root with one child. -/
def draftWith (title : PyStr)
    (accepted : (titledFields (lit "a") title (some (lit "b"))).postInit = .ok ()) : IssueGraphDraft where
  repoId := lit "repo"
  rootRef := lit "b"
  nodes := [rootNode, ⟨titledFields (lit "a") title (some (lit "b")), accepted⟩]
  edges := []
  constructed := rfl

def oneLine : IssueGraphDraft := draftWith (lit "Blocked by: \x60b\x60") (by decide +kernel)

def twoLines : IssueGraphDraft := draftWith (lit "A\nBlocked by: \x60b\x60") (by decide +kernel)

def sampleNumbers (ref : PyStr) : Option Int := if ref = lit "b" then some 1 else some 2

theorem sampleNumbers_complete (draft : IssueGraphDraft) : Complete draft sampleNumbers := by
  intro ref _
  unfold sampleNumbers
  split
  · exact ⟨1, rfl, by decide⟩
  · exact ⟨2, rfl, by decide⟩

theorem bodies_materialized_one_line :
    materializeIssueGraphBody (renderNode rootNode oneLine) sampleNumbers none =
      .ok (numberedNode (numberOf sampleNumbers) rootNode oneLine) :=
  (bodies_materialized oneLine rootNode sampleNumbers none (by decide +kernel)
    List.mem_cons_self (sampleNumbers_complete oneLine)).mpr (fun _ => by decide +kernel)

/-- The second line of a title is taken for one that is managed. -/
theorem bodies_rewrite_title : validateGraph twoLines = [] ∧ rootNode ∈ twoLines.nodes ∧
    Complete twoLines sampleNumbers ∧
    materializeIssueGraphBody (renderNode rootNode twoLines) sampleNumbers none ≠
      .ok (numberedNode (numberOf sampleNumbers) rootNode twoLines) := by
  refine ⟨by decide +kernel, List.mem_cons_self, sampleNumbers_complete twoLines, ?_⟩
  decide +kernel

end Sample

end RepoForge.IssueGraph
