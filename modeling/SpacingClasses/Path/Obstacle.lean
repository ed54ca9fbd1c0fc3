import SpacingClasses.Text.Basic

/-!
# Obstacles

What keeps a path from being followed, or a directory or a file from being made at it.
-/

namespace SpacingClasses

/-- What is wrong at a path. -/
inductive Obstacle where
  /-- A directory on the way does not exist. -/
  | missing
  /-- Something exists where a directory is to be made. -/
  | taken
  /-- Something on the way is no directory. -/
  | notDirectory
  /-- A directory stands where a file is to be read or written. -/
  | isDirectory
  /-- A name, or the whole path, is too long. -/
  | overlong
  deriving DecidableEq, Repr

/-- The obstacle in words, with its number. -/
def Obstacle.text : Obstacle → Text
  | missing => "[Errno 2] No such file or directory"
  | taken => "[Errno 17] File exists"
  | notDirectory => "[Errno 20] Not a directory"
  | isDirectory => "[Errno 21] Is a directory"
  | overlong => "[Errno 36] File name too long"

end SpacingClasses
