import FileMagic.RuleText.Source

/-! After the signature of a PNG image comes the header chunk, whose data start at 16: width,
height, bit depth, colour type, compression, filter and interlace method. -/

namespace FileMagic.Builtin

def pngLines : List Text := [
  "0\tubelong\t0x89504e47".toList,
  ">4\tubelong\t0x0d0a1a0a\tPNG image data".toList,
  ">>12\tstring\tIHDR".toList,
  ">>>25\tbyte\t0\t\\b, grayscale".toList,
  ">>>25\tbyte\t2\t\\b, RGB".toList,
  ">>>25\tbyte\t3\t\\b, colormap".toList,
  ">>>25\tbyte\t4\t\\b, gray+alpha".toList,
  ">>>25\tbyte\t6\t\\b, RGBA".toList,
  ">>>28\tbyte\t0\t\\b, non-interlaced".toList,
  ">>>28\tbyte\t1\t\\b, interlaced".toList]

end FileMagic.Builtin
