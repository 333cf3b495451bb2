import Floorplanner.Random.Source

/-! A source that replays given words, and zero for ever after them. -/

namespace Floorplanner

structure WordScript where
  words : List UInt64

namespace WordScript

def next64 (script : WordScript) : UInt64 × WordScript :=
  match script.words with
  | [] => (0, script)
  | word :: rest => (word, ⟨rest⟩)

/-- The low half of the next word; its high half is dropped. -/
def next32 (script : WordScript) : UInt32 × WordScript :=
  (script.next64.1.toUInt32, script.next64.2)

instance : WordSource WordScript where
  next32 := next32
  next64 := next64

end WordScript

end Floorplanner
