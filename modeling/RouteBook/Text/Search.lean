/-! Finding one list in another. -/

namespace RouteBook.Text

/-- The part after the first list, if the second starts with it. -/
def after? [DecidableEq α] : List α → List α → Option (List α)
  | [], text => some text
  | _ :: _, [] => none
  | c :: cs, d :: ds => if c = d then after? cs ds else none

theorem after?_eq_some_iff [DecidableEq α] {start text rest : List α} :
    after? start text = some rest ↔ text = start ++ rest := by
  induction start generalizing text with
  | nil => simp [after?, eq_comm]
  | cons c cs ih =>
    cases text with
    | nil => simp [after?]
    | cons d ds =>
      by_cases h : c = d
      · simp [after?, h, ih]
      · simp [after?, h, eq_comm]

/-- The first list stands somewhere in the second. -/
def occursIn [DecidableEq α] (piece : List α) : List α → Bool
  | [] => piece.isEmpty
  | c :: rest => (after? piece (c :: rest)).isSome || occursIn piece rest

/-- The parts before and after the first place where a piece stands. -/
def splitAt? [DecidableEq α] (piece : List α) : List α → Option (List α × List α)
  | [] => if piece.isEmpty then some ([], []) else none
  | c :: rest =>
    match after? piece (c :: rest) with
    | some behind => some ([], behind)
    | none => (splitAt? piece rest).map fun (front, behind) => (c :: front, behind)

/-- The parts between separators; there is always one more part than there are separators. -/
def pieces [DecidableEq α] (separator : α) : List α → List (List α)
  | [] => [[]]
  | c :: rest =>
    if c = separator then [] :: pieces separator rest
    else
      match pieces separator rest with
      | piece :: more => (c :: piece) :: more
      | [] => [[c]]

/-- Cuts a list into pieces: each step turns the head and what follows it into a piece and a rest. A step
whose rest does not shrink ends the cutting. -/
def chunks (step : α → List α → β × List α) : List α → List β
  | [] => []
  | c :: rest =>
    let (piece, left) := step c rest
    if left.length ≤ rest.length then piece :: chunks step left else [piece]
  termination_by text => text.length
  decreasing_by simp; omega

end RouteBook.Text
