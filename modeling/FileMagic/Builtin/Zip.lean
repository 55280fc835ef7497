import FileMagic.RuleText.Source

/-! Only the header of the first entry of an archive is looked at: documents that are archives
declare themselves by its name, and some of them by its content. -/

namespace FileMagic.Builtin

def zipLines : List Text := [
  "0\tulelong\t0x04034b50\tZip archive data".toList,
  ">26\tuleshort\t8".toList,
  ">>30\tstring\tmimetype".toList,
  ">>>38\tstring\tapplication/epub+zip\t\\b, EPUB document".toList,
  ">>>38\tstring\tapplication/vnd.oasis.opendocument.text\t\\b, OpenDocument Text".toList,
  ">>>38\tdefault\tx\t\\b, starting with mimetype".toList,
  ">30\tregex/64c\t^\\[content_types\\]\\.xml\t\\b, Microsoft OOXML".toList,
  "0\tulelong\t0x06054b50\tZip archive data (empty)".toList]

end FileMagic.Builtin
