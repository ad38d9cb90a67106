/-! # Lines

Texts cut at line ends. A text always has one line more than it has line ends.
-/
namespace SchemaScribe.Text

def splitLineFeeds : List Char → List (List Char)
  | [] => [[]]
  | c :: rest =>
    if c = '\n' then [] :: splitLineFeeds rest
    else
      match splitLineFeeds rest with
      | line :: others => (c :: line) :: others
      | [] => [[c]]

/-- The lines between line feeds, carriage returns, and pairs of both. -/
def splitLines : List Char → List (List Char)
  | [] => [[]]
  | '\r' :: '\n' :: rest => [] :: splitLines rest
  | '\n' :: rest => [] :: splitLines rest
  | '\r' :: rest => [] :: splitLines rest
  | c :: rest =>
    match splitLines rest with
    | line :: others => (c :: line) :: others
    | [] => [[c]]

theorem splitLineFeeds_ne_nil (s : List Char) : splitLineFeeds s ≠ [] := by
  cases s with
  | nil => simp [splitLineFeeds]
  | cons c rest =>
    simp only [splitLineFeeds]
    split
    · simp
    · split <;> simp

end SchemaScribe.Text
