import HubFederation.PortPool
import HubFederation.Text.Blank

/-!
# Lists of ports

A label holds a list of ports as numbers with dashes between them. Reading allows
blanks around the numbers, and empty places.

* `listOfText_listText`: a written list is read back.
-/
namespace HubFederation.Port

/-- The ports that pieces of a text name.
mirrors the pieces in `ports.parse_port_list` -/
def readPieces (pieces : List (List Char)) : Except PortError (List Port) :=
  (pieces.filter (Text.trim · ≠ [])).mapM fun piece =>
    match ofChars? (Text.trim piece) with
    | some port => .ok port
    | none => .error (.invalidPort (String.ofList piece))

/-- Port numbers between dashes.
mirrors `ports.parse_port_list` -/
def listOfText (s : String) : Except PortError (List Port) :=
  readPieces (s.toList.splitOn '-')

/-- Ports with dashes between them.
mirrors `ports.format_port_list` -/
def listText (ports : List Port) : String :=
  String.ofList (List.intercalate ['-'] (ports.map chars))

theorem isBlank_eq_false_of_mem_chars {p : Port} {c : Char} (h : c ∈ p.chars) :
    Text.isBlank c = false := by
  have := Text.digitValue?_of_mem_digits h
  unfold Text.digitValue? at this
  split at this
  next hc =>
    simp only [Text.isBlank, Bool.or_eq_false_iff, Bool.and_eq_false_iff, decide_eq_false_iff_not,
      beq_eq_false_iff_ne]
    omega
  · cases this

theorem ne_dash_of_mem_chars {p : Port} {c : Char} (h : c ∈ p.chars) : c ≠ '-' := by
  rintro rfl
  have := Text.digitValue?_of_mem_digits h
  revert this; decide

theorem trim_chars (p : Port) : Text.trim p.chars = p.chars := by
  have hs : ∀ s : List Char, (∀ c ∈ s, Text.isBlank c = false) → s.dropWhile Text.isBlank = s := by
    intro s h
    cases s with
    | nil => rfl
    | cons c s => rw [List.dropWhile_cons, h c (List.mem_cons_self ..)]; rfl
  have h : ∀ c ∈ p.chars, Text.isBlank c = false := fun c hc => isBlank_eq_false_of_mem_chars hc
  unfold Text.trim Text.trimEnd Text.trimStart
  rw [hs _ h, hs _ (fun c hc => h c (List.mem_reverse.1 hc)), List.reverse_reverse]

theorem readPieces_chars : ∀ ports : List Port, readPieces (ports.map chars) = .ok ports
  | [] => rfl
  | p :: ps => by
    have ih := readPieces_chars ps
    unfold readPieces at ih ⊢
    have hne : decide (Text.trim p.chars ≠ []) = true := by
      rw [trim_chars]; exact decide_eq_true (Text.digits_ne_nil _)
    rw [List.map_cons, List.filter_cons, if_pos hne, List.mapM_cons, ih, trim_chars, ofChars?_chars]
    rfl

theorem listOfText_listText (ports : List Port) : listOfText (listText ports) = .ok ports := by
  unfold listOfText listText
  rw [String.toList_ofList]
  cases ports with
  | nil => rfl
  | cons p ps =>
    have hdash : ∀ piece ∈ (p :: ps).map chars, '-' ∉ piece := by
      intro piece hpiece hmem
      obtain ⟨port, -, rfl⟩ := List.mem_map.1 hpiece
      exact ne_dash_of_mem_chars hmem rfl
    rw [List.splitOn_intercalate '-' hdash (by simp), readPieces_chars]

end HubFederation.Port
