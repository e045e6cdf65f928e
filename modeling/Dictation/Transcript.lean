import Dictation.Inline

/-!
# Compiling a transcript

A transcript is cut at line ends and terminators; what is between them is compiled in place.  Line
ends and terminators are inserted as they are, a terminator with a space after it if more text
follows on its line.

* `Transcript.pieces`   the cut, by recursion on the text with the piece read so far;
* `Transcript.compile`  the pieces one after the other.
-/

namespace Dictation.Transcript

inductive Piece where
  | lineEnd
  | terminator (c : Char)
  | words (text : Text)
deriving DecidableEq, Repr

namespace Piece

def text : Piece → Text
  | lineEnd => ['\n']
  | terminator c => [c]
  | words t => t

def isWords : Piece → Bool
  | words _ => true
  | _ => false

/-- a piece of text without the blanks around it; no piece if nothing is left -/
def ofRun (run : Text) : List Piece := if run.trim.isEmpty then [] else [.words run.trim]

end Piece

/-- the pieces after the run of text `run` -/
def piecesAfter (run : Text) : Text → List Piece
  | [] => Piece.ofRun run
  | c :: r =>
    if c == '\n' then Piece.ofRun run ++ .lineEnd :: piecesAfter [] r
    else if isTerminator c then Piece.ofRun run ++ .terminator c :: piecesAfter [] r
    else piecesAfter (run ++ [c]) r

def pieces (t : Text) : List Piece := piecesAfter [] t

theorem pieces_nil : pieces [] = [] := rfl

/-- the space after a terminator -/
def spaceBefore : List Piece → List Operation
  | .words _ :: _ => [.insertText [' ']]
  | _ => []

def ofPieces (ctx : Context) : List Piece → List Operation
  | [] => []
  | .lineEnd :: ps => .insertText ['\n'] :: ofPieces ctx ps
  | .terminator c :: ps => .insertText [c] :: spaceBefore ps ++ ofPieces ctx ps
  | .words t :: ps => Inline.compile ctx t ++ ofPieces ctx ps

theorem ofPieces_nil (ctx : Context) : ofPieces ctx [] = [] := rfl

def compile (ctx : Context) (t : Text) : List Operation :=
  if t.allBlank then [] else ofPieces ctx (pieces t)

/-! ## events -/

def pieceEvents (ctx : Context) : Piece → List Event
  | .words t => Inline.events ctx t
  | _ => []

def events (ctx : Context) (t : Text) : List Event :=
  if t.allBlank then []
  else .transcriptCut (pieces t).length :: (pieces t).flatMap (pieceEvents ctx)

end Dictation.Transcript
