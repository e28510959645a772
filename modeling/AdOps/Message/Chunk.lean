import AdOps.Text.Split

/-!
# Chunks

A message holds a limited number of characters. Blocks of text are packed greedily: each chunk
takes blocks as long as they fit, joined by a joiner. A block is never split, so one that is longer
than the limit is a chunk of its own.
-/

namespace AdOps.Message

def blockJoiner : String := "\n\n"

/-- Packs blocks behind `current`, the chunk being filled. -/
def packFrom (max : Nat) (joiner : String) (current : String) : List String → List String
  | [] => [current]
  | block :: blocks =>
    if current.length + joiner.length + block.length ≤ max then
      packFrom max joiner (current ++ joiner ++ block) blocks
    else current :: packFrom max joiner block blocks

/-- Packs blocks into chunks of at most `max` characters. -/
def pack (max : Nat) (joiner : String) : List String → List String
  | [] => []
  | block :: blocks => packFrom max joiner block blocks

/-- The blocks of a text: its pieces between blank lines. -/
def blocks (text : String) : List String :=
  (Text.splitPair '\n' '\n' text.toList).map String.ofList

def packText (max : Nat) (text : String) : List String := pack max blockJoiner (blocks text)

end AdOps.Message
