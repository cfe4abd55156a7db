import TinyLisp.Console

/-!
The console as a program over standard input and output.
-/

set_option autoImplicit false

namespace TinyLisp

namespace Console

/-- Answer line after line until the conversation or the input ends. -/
partial def converseOver (input output : IO.FS.Stream) (console : Console) : IO Unit := do
  let line ← input.getLine
  if line.isEmpty then
    output.putStrLn farewell
  else
    let (answers, next) := console.respond (.ofLine line.toList)
    for text in answers do
      output.putStrLn text
    output.flush
    match next with
    | some console => converseOver input output console
    | none => return

end Console

end TinyLisp

open TinyLisp in
def main : IO Unit := do
  let output ← IO.getStdout
  for line in Console.banner do
    output.putStrLn line
  Console.converseOver (← IO.getStdin) output Console.start
