import TrackerLinks.Text.Basic

namespace TrackerLinks

inductive IoError
  | notFound
  | notADirectory
  | isADirectory
  | tooManyLinks
  | nameTooLong
  | invalidUtf8
  | nulInPath
  | other (description : Text)
  deriving DecidableEq

def IoError.message : IoError → Text
  | notFound => "No such file or directory (os error 2)".toList
  | notADirectory => "Not a directory (os error 20)".toList
  | isADirectory => "Is a directory (os error 21)".toList
  | tooManyLinks => "Too many levels of symbolic links (os error 40)".toList
  | nameTooLong => "File name too long (os error 36)".toList
  | invalidUtf8 => "stream did not contain valid UTF-8".toList
  | nulInPath => "file name contained an unexpected NUL byte".toList
  | other description => description

end TrackerLinks
