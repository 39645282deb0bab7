import Workbench.Text.Lines
set_option autoImplicit false

/-!
The files that a new project starts from, line by line.
-/
namespace Workbench.Scaffold
open Text

def file (ls : List String) : Text := joinWith ['\n'] (ls.map String.toList)

def webApiApp : Text := file [
  "from flask import Flask, request, jsonify",
  "",
  "app = Flask(__name__)",
  "",
  "@app.route('/api/hello', methods=['GET'])",
  "def hello():",
  "    return jsonify(\x7b\"message\": \"Hello, World!\"\x7d)",
  "",
  "@app.route('/api/echo', methods=['POST'])",
  "def echo():",
  "    data = request.json",
  "    return jsonify(data)",
  "",
  "if __name__ == '__main__':",
  "    app.run(debug=True)",
  ""]

def webApiRequirements : Text := file [
  "flask==2.0.1",
  ""]

def webApiReadme : Text := file [
  "# Flask API",
  "",
  "A simple Flask API with basic endpoints.",
  "",
  "## Setup",
  "",
  "```",
  "pip install -r requirements.txt",
  "python app.py",
  "```",
  "",
  "## Endpoints",
  "",
  "- GET /api/hello - Returns a hello message",
  "- POST /api/echo - Echoes back the JSON payload",
  ""]

def frontEndPage : Text := file [
  "<!DOCTYPE html>",
  "<html lang=\"en\">",
  "<head>",
  "    <meta charset=\"UTF-8\">",
  "    <meta name=\"viewport\" content=\"width=device-width, initial-scale=1.0\">",
  "    <title>React App</title>",
  "</head>",
  "<body>",
  "    <div id=\"root\"></div>",
  "    <script src=\"https://unpkg.com/react@17/umd/react.development.js\"></script>",
  "    <script src=\"https://unpkg.com/react-dom@17/umd/react-dom.development.js\"></script>",
  "    <script src=\"https://unpkg.com/@babel/standalone/babel.min.js\"></script>",
  "    <script type=\"text/babel\" src=\"app.js\"></script>",
  "</body>",
  "</html>",
  ""]

def frontEndApp : Text := file [
  "const App = () => \x7b",
  "    const [count, setCount] = React.useState(0);",
  "",
  "    return (",
  "        <div style=\x7b\x7b textAlign: 'center', marginTop: '50px' \x7d\x7d>",
  "            <h1>React Counter App</h1>",
  "            <p>Count: \x7bcount\x7d</p>",
  "            <button onClick=\x7b() => setCount(count + 1)\x7d>Increment</button>",
  "            <button onClick=\x7b() => setCount(count - 1)\x7d>Decrement</button>",
  "        </div>",
  "    );",
  "\x7d;",
  "",
  "ReactDOM.render(<App />, document.getElementById('root'));",
  ""]

def frontEndReadme : Text := file [
  "# React Counter App",
  "",
  "A simple React app with a counter.",
  "",
  "## Usage",
  "",
  "Open index.html in a web browser.",
  ""]

def staticSitePage : Text := file [
  "<!DOCTYPE html>",
  "<html lang=\"en\">",
  "<head>",
  "    <meta charset=\"UTF-8\">",
  "    <meta name=\"viewport\" content=\"width=device-width, initial-scale=1.0\">",
  "    <title>Simple Web Project</title>",
  "    <link rel=\"stylesheet\" href=\"styles.css\">",
  "</head>",
  "<body>",
  "    <div class=\"container\">",
  "        <h1>Hello, World!</h1>",
  "        <p>This is a simple web project.</p>",
  "        <button id=\"clickMe\">Click Me</button>",
  "        <p id=\"result\"></p>",
  "    </div>",
  "    <script src=\"script.js\"></script>",
  "</body>",
  "</html>",
  ""]

def staticSiteStyles : Text := file [
  "body \x7b",
  "    font-family: Arial, sans-serif;",
  "    line-height: 1.6;",
  "    margin: 0;",
  "    padding: 0;",
  "    background-color: #f4f4f4;",
  "\x7d",
  "",
  ".container \x7b",
  "    width: 80%;",
  "    margin: 0 auto;",
  "    padding: 20px;",
  "    text-align: center;",
  "\x7d",
  "",
  "button \x7b",
  "    background-color: #4CAF50;",
  "    color: white;",
  "    padding: 10px 15px;",
  "    border: none;",
  "    border-radius: 4px;",
  "    cursor: pointer;",
  "\x7d",
  "",
  "button:hover \x7b",
  "    background-color: #45a049;",
  "\x7d",
  ""]

def staticSiteScript : Text := file [
  "document.getElementById('clickMe').addEventListener('click', function() \x7b",
  "    document.getElementById('result').textContent = 'Button clicked at ' + new Date().toLocaleTimeString();",
  "\x7d);",
  ""]

def staticSiteReadme : Text := file [
  "# Simple Web Project",
  "",
  "A basic HTML, CSS, and JavaScript project.",
  "",
  "## Usage",
  "",
  "Open index.html in a web browser.",
  ""]

end Workbench.Scaffold
